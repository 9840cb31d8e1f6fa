import MetricsQuery.Proofs.Context.Agreement
import MetricsQuery.Proofs.Metric.Exposition
import MetricsQuery.Proofs.Places

/-!
# Latencies

A profiled task records its latency once, after it has its outcome and before its handle can be read,
and nothing else records one (`Task.recorded?_step`). So the latencies recorded along a run are those
of the profiled tasks that are so far (`profiled_run`), whatever their outcome is and whatever became
of their handles. A batch records one latency under each of its labels: `latencies_run`.
-/

namespace MetricsQuery

namespace Task

variable {c : Context} {t : Task}

/-- The label under which the latency of a task has been recorded. -/
def recorded? (t : Task) : Option String :=
  match t.stage with
  | .timed _ | .delivered _ => t.label?
  | _ => none

/-- Whether a task is profiled under a label and produced an outcome. -/
def produced (label : String) (t : Task) : Bool := t.label? == some label && t.stage.outcome?.isSome

/-- Whether a task is profiled under a label and has its outcome, but not its latency yet. -/
def unrecorded (label : String) (t : Task) : Bool :=
  t.label? == some label && match t.stage with
    | .settled _ => true
    | _ => false

@[simp] theorem label?_step (e : Pool.Event) : (t.step c e).label? = t.label? := by
  rw [label?, waiting_step, label?]

/-- The reply to a query records no latency. -/
theorem recorded?_settle (reply : Reply) :
    ({ t with stage := (t.settle c reply).1 } : Task).recorded? = none := by
  unfold settle
  split
  · rfl
  · split <;> rfl
  · rfl

/-- A task records the latency that an event is recorded at, and keeps what it has recorded. -/
theorem recorded?_step (e : Pool.Event) :
    (t.step c e).recorded?.toList = t.recorded?.toList ++ (t.latency? e).toList := by
  cases e with
  | start => exact (List.append_nil _).symm
  | settle i reply =>
    cases hst : t.stage with
    | awaiting =>
      have hs : t.step c (.settle i reply) = { t with stage := (t.settle c reply).1 } := by
        simp only [step, hst]
      rw [hs, recorded?_settle, recorded?, hst]
      rfl
    | _ =>
      simp only [step, hst]
      exact (List.append_nil _).symm
  | time i elapsed =>
    cases hw : t.waiting with
    | handle label =>
      cases hst : t.stage <;> simp [step, recorded?, latency?, label?, hw, hst]
    | _ =>
      simp only [step, latency?, hw]
      exact (List.append_nil _).symm
  | deliver i =>
    cases hst : t.stage <;> simp [step, recorded?, latency?, label?, hst]
  | destroy i =>
    cases hst : t.stage <;> simp [step, recorded?, latency?, label?, hst]
  | read i =>
    simp only [step]
    split <;> exact (List.append_nil _).symm
  | drop i => exact (List.append_nil _).symm

/-- A task that runs its course with a reply has recorded its latency then. -/
theorem recorded?_of_course {label : Option String} (hw : t.waiting = .handle label)
    (hs : t.stage = .awaiting) {es : List Pool.Event} {reply : Reply} {i : Nat} {elapsed : Duration}
    (hf : fateOf es = some (.replied reply))
    (hc : ((Fate.replied reply).course i elapsed).Sublist es) :
    (t.run c es).recorded? = (t.run c es).label? := by
  obtain ⟨before, after, rfl, hrank⟩ := rank_of_replied (c := c) hw hs hf hc
  obtain ⟨o, hdelivered⟩ := Stage.eq_delivered hrank
  have ho : (t.run c before).stage.outcome? = some o := by
    rw [hdelivered]
    rfl
  have hlast : 2 ≤ ((t.run c before).run c (.read i :: after)).stage.rank :=
    Nat.le_trans hrank (rank_le_run ho _)
  obtain ⟨o', hstage⟩ := Stage.eq_delivered hlast
  rw [run_append]
  simp only [recorded?, hstage]

end Task

namespace Pool

variable {c : Context} {p : Pool}

/-- The latencies recorded are those of the tasks that are so far. -/
theorem profiled_run (c : Context) (hp : p.profiled.Perm (p.tasks.filterMap Task.recorded?))
    (events : List Event) :
    (run c p events).profiled.Perm ((run c p events).tasks.filterMap Task.recorded?) := by
  refine run_induction (P := fun p => p.profiled.Perm (p.tasks.filterMap Task.recorded?))
    (fun p e h => ?_) hp events
  rcases step_cases c p e with ⟨now, query, kind, waiting, -, hs⟩ | ⟨i, t, -, ht, hm⟩ | hs
  · have hnew : [(⟨query, c.request now query kind, waiting, .awaiting, true⟩ : Task)].filterMap
        Task.recorded? = [] := rfl
    rw [hs, List.filterMap_append, hnew, List.append_nil]
    exact h
  · rw [hm.tasks, hm.profiled]
    exact (h.append_right _).trans (Places.filterMap_set_perm _ ht (t.recorded?_step e)).symm
  · rw [hs]
    exact h

/-! ## Counting -/

theorem countP_add {α : Type} {f g h : α → Bool}
    (hadd : ∀ a, (f a).toNat + (g a).toNat = (h a).toNat) (xs : List α) :
    xs.countP f + xs.countP g = xs.countP h := by
  have hcons : ∀ (f : α → Bool) a xs, List.countP f (a :: xs) = List.countP f xs + (f a).toNat := by
    intro f a xs
    rw [List.countP_cons]
    cases f a <;> rfl
  induction xs with
  | nil => rfl
  | cons a xs ih =>
    have ha := hadd a
    rw [hcons, hcons, hcons]
    omega

/-- A task that produced an outcome has recorded its latency, or has not yet. -/
theorem recorded_add_unrecorded (label : String) (t : Task) :
    (t.recorded? == some label).toNat + (t.unrecorded label).toNat = (t.produced label).toNat := by
  cases hst : t.stage <;>
    simp [Task.recorded?, Task.unrecorded, Task.produced, hst, Stage.outcome?]

theorem count_profiled {tasks : List Task} {profiled : List String}
    (h : profiled.Perm (tasks.filterMap Task.recorded?)) (label : String) :
    profiled.count label + tasks.countP (Task.unrecorded label) =
      tasks.countP (Task.produced label) := by
  have hcount : profiled.count label = tasks.countP fun t => t.recorded? == some label := by
    rw [h.count_eq, List.count_eq_countP, List.countP_filterMap]
    refine List.countP_congr fun t _ => ?_
    cases t.recorded? <;> simp
  rw [hcount, countP_add (recorded_add_unrecorded label)]

/-! ## Batches -/

/-- The query and the label of the profiled task that an event starts. -/
def Event.profiled? : Event → Option (String × Option String)
  | .start _ query _ (.handle (some label)) => some (query, some label)
  | _ => none

/-- The label of the profiled task that an event starts. -/
def Event.label? (e : Event) : Option String := e.profiled?.bind Prod.snd

/-- The profiled tasks that are started in a run are those of batches, in whatever order. -/
def StartsBatches (batches : List (List String)) (events : List Event) : Prop :=
  (events.filterMap Event.profiled?).Perm (batches.flatMap labelled)

theorem label?_start (c : Context) (now : Instant) (query : String) (kind : QueryKind)
    (waiting : Waiting) : (Task.started c now query kind waiting).label? =
      Event.label? (.start now query kind waiting) := by
  cases waiting with
  | handle label => cases label <;> rfl
  | _ => rfl

theorem label?_of_place {e : Event} {i : Nat} (h : e.place? = some i) : e.label? = none := by
  cases e with
  | start => cases h
  | _ => rfl

/-- A task keeps its label, and a start adds one if it is of a profiled task. -/
theorem labels_step (c : Context) (p : Pool) (e : Event) :
    (p.step c e).tasks.filterMap Task.label? =
      p.tasks.filterMap Task.label? ++ e.label?.toList := by
  cases he : e.place? with
  | none =>
    cases e with
    | start now query kind waiting =>
      have hnew : [Task.started c now query kind waiting].filterMap Task.label? =
          (Event.label? (.start now query kind waiting)).toList := by
        rw [List.filterMap_eq_flatMap_toList, List.flatMap_singleton, label?_start]
      rw [← hnew, ← List.filterMap_append]
      rfl
    | _ => cases he
  | some i =>
    rw [label?_of_place he, Option.toList_none, List.append_nil]
    cases ht : p.tasks[i]? with
    | none => rw [step_of_missing he ht]
    | some t =>
      rw [(moved_step (c := c) he ht).tasks]
      exact Places.filterMap_set ht (Task.label?_step e)

/-- The labels of the tasks are those they were started under. -/
theorem labels_run (c : Context) (p : Pool) (events : List Event) :
    (run c p events).tasks.filterMap Task.label? =
      p.tasks.filterMap Task.label? ++ events.filterMap Event.label? := by
  induction events generalizing p with
  | nil => exact (List.append_nil _).symm
  | cons e es ih =>
    rw [run_cons, ih, labels_step, Places.filterMap_cons_toList, List.append_assoc]

theorem batchLabel_inj {i j : Nat} : batchLabel i = batchLabel j ↔ i = j := by
  refine ⟨fun h => ?_, fun h => h ▸ rfl⟩
  have hrepr : (i + 1).repr = (j + 1).repr := (String.append_right_inj _).mp h
  -- The number is read back from its digits.
  have hdigits := congrArg (fun s : String => Nat.ofDigitChars 10 s.toList 0) hrepr
  simp only [Nat.toList_repr, Nat.ofDigitChars_ten_toDigits] at hdigits
  exact Nat.succ.inj hdigits

/-- The label of a number has no characters that are escaped. -/
theorem isPlain_batchLabel (i : Nat) : Exposition.IsPlain (batchLabel i).toList := by
  intro c hc
  rw [batchLabel, String.toList_append, List.mem_append] at hc
  rcases hc with hc | hc
  · have hplain : ("Query #".toList.all fun c => c != '\n' && c != '"' && c != '\\') = true := by
      decide
    simpa [and_assoc] using List.all_eq_true.mp hplain c hc
  · have hdigit : c.isDigit = true := by
      rw [show toString (i + 1) = (i + 1).repr from rfl, Nat.toList_repr] at hc
      exact Nat.isDigit_of_mem_toDigits (by decide) (by decide) hc
    refine ⟨?_, ?_, ?_⟩ <;> rintro rfl <;> cases hdigit

/-- A batch has its queries under the labels of their numbers. -/
theorem labels_labelled (queries : List String) :
    (labelled queries).filterMap Prod.snd = (List.range queries.length).map batchLabel := by
  rw [labelled, List.filterMap_map, List.range_eq_range', ← List.zipIdx_map_snd 0 queries,
    List.map_map, ← List.filterMap_eq_map]
  rfl

theorem StartsBatches.labels {batches : List (List String)} {events : List Event}
    (h : StartsBatches batches events) : (events.filterMap Event.label?).Perm
      (batches.flatMap fun queries => (List.range queries.length).map batchLabel) := by
  have hsnd := h.filterMap Prod.snd
  rw [List.filterMap_filterMap, List.filterMap_flatMap] at hsnd
  simp only [labels_labelled] at hsnd
  exact hsnd

/-- A batch has one query with a number if it has so many. -/
theorem count_labels (n i : Nat) :
    ((List.range n).map batchLabel).count (batchLabel i) = if i < n then 1 else 0 := by
  have hlabel : ∀ j, (batchLabel j == batchLabel i) = (j == i) := fun j => by
    rw [Bool.eq_iff_iff, beq_iff_eq, beq_iff_eq, batchLabel_inj]
  rw [List.count_eq_countP, List.countP_map]
  simp only [Function.comp_def, hlabel]
  rw [← List.count_eq_countP, List.count_range]

theorem count_batches (batches : List (List String)) (i : Nat) :
    (batches.flatMap fun queries => (List.range queries.length).map batchLabel).count
      (batchLabel i) = batches.countP fun queries => i < queries.length := by
  induction batches with
  | nil => rfl
  | cons b bs ih =>
    rw [List.flatMap_cons, List.count_append, ih, count_labels, List.countP_cons, Nat.add_comm]
    simp only [decide_eq_true_eq]

/-- The tasks of a batch are labelled with their numbers, whatever happens beside it. -/
theorem label?_batch (c : Context) (before : List Event) (turns : Nat → Turn)
    (queries : List String) (rest : List Event) {i : Nat} (hi : i < queries.length) :
    ∃ j t, (handles c (run c {} before) turns (batch true queries))[i]? = some j ∧
      (run c {} (before ++ interleaved turns (batch true queries) ++ rest)).tasks[j]? = some t ∧
      t.label? = some (batchLabel i) := by
  have hlength : i < (handles c (run c {} before) turns (batch true queries)).length := by
    rw [length_handles, ← List.length_map Prod.fst, map_fst_batch]
    exact hi
  have hq : (batch true queries)[i]? = some (queries[i], some (batchLabel i)) := by
    have hidx : queries.zipIdx[i]? = some (queries[i], i) := by
      rw [List.getElem?_zipIdx, List.getElem?_eq_getElem hi, Option.map_some, Nat.zero_add]
    rw [batch, if_pos rfl, labelled, List.getElem?_map, hidx, Option.map_some]
  have hj := List.getElem?_eq_getElem hlength
  obtain ⟨earlier, hplace, hsplit⟩ := interleaved_split hq hj
  have hf : Faithful (run c (run c {} before) earlier) := by
    rw [← run_append]
    exact faithful_run c (before ++ earlier)
  have ht := (part_start (c := c) hf (turns i).now queries[i] .instant (some (batchLabel i))
    (later turns (batch true queries) i ++ rest)).1
  rw [← run_append, ← run_append, ← hplace] at ht
  have hlabel : ∀ es, ((begun c (turns i).now queries[i] .instant (some (batchLabel i))).run c
      es).label? = some (batchLabel i) := fun es => by
    rw [Task.label?, Task.waiting_run]
    rfl
  rw [hsplit, List.append_assoc, List.append_assoc, List.cons_append]
  exact ⟨_, _, hj, ht, hlabel _⟩

end Pool

namespace Session

variable (c : Context) (env : Surroundings)

/-- A query that runs as a task records its latency under its label, whatever it comes to. -/
theorem profiled_spawn (query : String) (kind : QueryKind) (label : Option String) (s : Session) :
    (spawn c env query kind label s).2.profiled = s.profiled ++ label.toList := by
  have hplace : ∀ e ∈ (Fate.replied (reply c env query kind s)).course s.place env.latency,
      e.place? = some s.place := fun _ => Pool.place?_of_mem_course
  have hrun := Pool.started_run c s.toPool env.now query kind (.handle label) hplace
  rw [toPool_spawn, hrun.profiled]
  show s.profiled ++ ([] ++ (label.toList ++ [])) = _
  rw [List.nil_append, List.append_nil]

theorem profiled_spawnAll (qs : List (String × Option String)) (s : Session) :
    (spawnAll c env qs s).2.profiled = s.profiled ++ qs.filterMap Prod.snd := by
  induction qs generalizing s with
  | nil => exact (List.append_nil _).symm
  | cons q qs ih =>
    have hrest : (spawnAll c env (q :: qs) s).2 =
        (spawnAll c env qs (spawn c env q.1 .instant q.2 s).2).2 := rfl
    rw [hrest, ih, profiled_spawn, Places.filterMap_cons_toList, List.append_assoc]

theorem profiled_profileAll (queries : List String) (s : Session) :
    (profileAll c env queries s).2.profiled =
      s.profiled ++ (List.range queries.length).map Pool.batchLabel := by
  rw [profileAll, profiled_spawnAll, Pool.labels_labelled]

end Session

namespace Pool

/-- The latencies recorded are those of the profiled tasks that produced an outcome. -/
structure Metered (p : Pool) : Prop where
  /-- Each latency is one of a task that has gone so far. -/
  ledger : p.profiled.Perm (p.tasks.filterMap Task.recorded?)
  /-- Under each label there are as many as tasks profiled under it that produced an outcome, but
  for those that have it and are about to record their latency. -/
  count : ∀ label, p.profiled.count label + p.tasks.countP (Task.unrecorded label) =
    p.tasks.countP (Task.produced label)
  /-- Queries that are not profiled, inline and raw ones, and tasks without an outcome record none. -/
  source : ∀ label ∈ p.profiled, ∃ t ∈ p.tasks, t.waiting = .handle (some label) ∧
    t.stage.outcome?.isSome
  /-- Where the handle of a task can be read, the latency is recorded, unless the task was lost. -/
  readable : ∀ t ∈ p.tasks, t.delivery?.isSome → t.stage = .lost ∨ t.recorded? = t.label?
  /-- The number under a label is exposed. -/
  exposed : ∀ latency, ∀ label ∈ p.profiled, Exposition.IsPlain label.toList →
    Exposition.line (Metric.queryDuration.name ++ "_count") [("label", label)]
      (toString (p.profiled.count label)) ∈ Exposition.latencies latency p.profiled

theorem source_of_recorded {t : Task} {label : String} (h : t.recorded? = some label) :
    t.waiting = .handle (some label) ∧ t.stage.outcome?.isSome := by
  unfold Task.recorded? at h
  have hwaiting : t.label? = some label → t.waiting = .handle (some label) := by
    unfold Task.label?
    split
    · next hw =>
      rintro rfl
      exact hw
    · nofun
  split at h
  · next hs => exact ⟨hwaiting h, by rw [hs]; rfl⟩
  · next hs => exact ⟨hwaiting h, by rw [hs]; rfl⟩
  · cases h

theorem recorded_of_readable {t : Task} (h : t.delivery?.isSome) :
    t.stage = .lost ∨ t.recorded? = t.label? := by
  unfold Task.delivery? at h
  split at h
  · next hs => exact .inr (by simp only [Task.recorded?, hs])
  · next hs => exact .inl hs
  · cases h

theorem metered_run (c : Context) (events : List Event) : Metered (run c {} events) where
  ledger := profiled_run c (.refl _) events
  count := count_profiled (profiled_run c (.refl _) events)
  source label hl := by
    obtain ⟨t, ht, h⟩ := List.mem_filterMap.mp ((profiled_run c (.refl _) events).mem_iff.mp hl)
    exact ⟨t, ht, source_of_recorded h⟩
  readable _ _ h := recorded_of_readable h
  exposed latency _ hl hp := Exposition.count_mem_latencies latency hl hp

/-- A profiled task that gets a reply has an outcome, whatever that is. -/
theorem result?_settle {p : Pool} {i : Nat} {t : Task} (ht : p.tasks[i]? = some t)
    (hl : t.label?.isSome) (hs : t.stage = .awaiting) (reply : Reply) :
    ((p.step c (.settle i reply)).result? i).isSome := by
  have hw : ∃ label, t.waiting = .handle label := by
    unfold Task.label? at hl
    split at hl
    · next hw => exact ⟨_, hw⟩
    · cases hl
  obtain ⟨label, hw⟩ := hw
  have hfollows := Task.follows_run (c := c) hw hs [.settle i reply]
  have houtcome : (t.step c (.settle i reply)).stage.outcome? = some _ := hfollows
  rw [result?, (step_own (c := c) rfl ht).1, Option.bind_some, Task.result?, houtcome]
  rfl

/-- In a run from a pool without queries, the labels recorded are labels of the profiled tasks that
are started, and all of these if each of the tasks has gone so far. -/
theorem profiled_labels (c : Context) (ht : p.tasks = []) (hp : p.profiled = [])
    (events : List Event) :
    (∀ label ∈ (run c p events).profiled, label ∈ events.filterMap Event.label?) ∧
    ((∀ t ∈ (run c p events).tasks, t.label?.isSome → t.recorded?.isSome) →
      (run c p events).profiled.Perm (events.filterMap Event.label?)) := by
  have hlabels : (run c p events).tasks.filterMap Task.label? = events.filterMap Event.label? := by
    rw [labels_run, ht]
    rfl
  have hledger : (run c p events).profiled.Perm
      ((run c p events).tasks.filterMap Task.recorded?) := by
    refine profiled_run c ?_ events
    rw [hp, ht]
    exact .refl _
  have hrecorded : ∀ t : Task, t.recorded? = none ∨ t.recorded? = t.label? := by
    intro t
    unfold Task.recorded?
    split
    · exact .inr rfl
    · exact .inr rfl
    · exact .inl rfl
  rw [← hlabels]
  refine ⟨fun label hl => ?_, fun hall => ?_⟩
  · obtain ⟨t, ht, h⟩ := List.mem_filterMap.mp (hledger.mem_iff.mp hl)
    rcases hrecorded t with hn | he
    · rw [hn] at h
      cases h
    · exact List.mem_filterMap.mpr ⟨t, ht, he ▸ h⟩
  · have hsame : (run c p events).tasks.filterMap Task.recorded? =
        (run c p events).tasks.filterMap Task.label? := by
      refine List.filterMap_congr fun t ht => ?_
      rcases hrecorded t with hn | he
      · cases hl : t.label? with
        | none => exact hn
        | some label =>
          have hsome := hall t ht (by rw [hl]; rfl)
          rw [hn] at hsome
          cases hsome
      · exact he
    exact hsame ▸ hledger

/-- After every run, however its tasks took turns, the latencies recorded are those of the profiled
tasks that produced an outcome, be it results, a fault or a panic. The tasks of a batch are labelled
with their numbers. If the profiled tasks of a run are those of batches and all of them have gone so
far, there is one latency under a number for each batch of so many queries, and none under another
label. A session that runs a batch records one latency under each of its numbers. -/
theorem latencies_run (c : Context) (events : List Event) :
    Metered (run c {} events) ∧
    (∀ i t reply, (run c {} events).tasks[i]? = some t → t.label?.isSome → t.stage = .awaiting →
      ((run c {} (events ++ [.settle i reply])).result? i).isSome) ∧
    (∀ before turns queries rest,
      events = before ++ interleaved turns (batch true queries) ++ rest →
      ∀ i < queries.length, ∃ j t,
        (handles c (run c {} before) turns (batch true queries))[i]? = some j ∧
        (run c {} events).tasks[j]? = some t ∧ t.label? = some (batchLabel i)) ∧
    (∀ batches, StartsBatches batches events →
      (∀ label ∈ (run c {} events).profiled, ∃ queries ∈ batches, ∃ i < queries.length,
        label = batchLabel i) ∧
      ((∀ t ∈ (run c {} events).tasks, t.label?.isSome → t.recorded?.isSome) →
        ∀ i, (run c {} events).profiled.count (batchLabel i) =
          batches.countP fun queries => i < queries.length)) ∧
    ∀ env queries s, (Session.profileAll c env queries s).2.profiled =
      s.profiled ++ (List.range queries.length).map batchLabel := by
  refine ⟨metered_run c events, fun i t reply ht hl hs => ?_, ?_, fun batches hb => ⟨?_, ?_⟩,
    fun env queries s => Session.profiled_profileAll c env queries s⟩
  · rw [run_append]
    exact result?_settle ht hl hs reply
  · rintro before turns queries rest rfl i hi
    exact label?_batch c before turns queries rest hi
  · intro label hl
    have hmem := hb.labels.mem_iff.mp ((profiled_labels (p := {}) c rfl rfl events).1 label hl)
    obtain ⟨queries, hq, h⟩ := List.mem_flatMap.mp hmem
    obtain ⟨i, hi, rfl⟩ := List.mem_map.mp h
    exact ⟨queries, hq, i, List.mem_range.mp hi, rfl⟩
  · intro hall i
    have hlabels := (profiled_labels (p := {}) c rfl rfl events).2 hall
    rw [hlabels.count_eq, hb.labels.count_eq, count_batches]

/-- Two batches at the same time, whose queries are started by turns. -/
example (now : Instant) : StartsBatches [["up", "down"], ["up"]]
    [.start now "up" .instant (.handle (some "Query #1")),
      .start now "up" .instant (.handle (some "Query #1")),
      .start now "spare" .instant (.handle none),
      .start now "down" .instant (.handle (some "Query #2"))] := by
  show List.Perm [("up", some "Query #1"), ("up", some "Query #1"), ("down", some "Query #2")] _
  decide +kernel

end Pool

end MetricsQuery
