import MetricsQuery.Proofs.Context.Profiled
import MetricsQuery.Proofs.Context.Session

/-!
# Batches that are run to their end

A batch is run to its end if every query of it gets a reply, goes on to where its handle can be read
and is read then (`Schedule.Complete`), in whatever order the queries do so. Each handle gives then
what the reply to its own query makes (`given_complete`), and that is all the collector is told of:
every query has made its report, in the order of their replies (`results_complete`). By then a batch
that is profiled has recorded one latency under each of its labels (`profiled_complete`). A session
runs a batch query by query, with the answers of its backend (`answeredBy_schedule`).
-/

namespace MetricsQuery.Pool

/-- An event that takes a query further and neither ends it early nor gives its handle up. -/
inductive Event.Advances : Event → Prop
  | settle (i : Nat) (reply : Reply) : Advances (settle i reply)
  | time (i : Nat) (elapsed : Duration) : Advances (time i elapsed)
  | deliver (i : Nat) : Advances (deliver i)
  | read (i : Nat) : Advances (read i)

/-- In its turns a batch is started and taken further, and no more. -/
def Advancing (turns : Nat → Turn) : Prop := ∀ i, ∀ e ∈ (turns i).meanwhile, e.Advances

theorem Advancing.next {turns : Nat → Turn} (h : Advancing turns) : Advancing (nextTurns turns) :=
  fun i => h (i + 1)

/-- How the queries of a batch are run: what happens while they are started and after that, and the
reply to each. -/
structure Schedule where
  turns : Nat → Turn
  rest : List Event := []
  replies : Nat → Reply

namespace Schedule

variable (s : Schedule) (qs : List (String × Option String))

def events : List Event := interleaved s.turns qs ++ s.rest

/-- The events after the one that starts the query of a number. -/
def after (i : Nat) : List Event := later s.turns qs i ++ s.rest

/-- Every query runs its course with the reply to it, in any order with the others. -/
structure Complete : Prop where
  meanwhile : Advancing s.turns
  rest : ∀ e ∈ s.rest, e.Advances
  fate : ∀ i < qs.length, fateOf (own i (s.after qs i)) = some (.replied (s.replies i))
  course : ∀ i < qs.length, ∃ elapsed,
    ((Fate.replied (s.replies i)).course i elapsed).Sublist (s.after qs i)

/-- What the reply to the query of a number makes. -/
def delivery (c : Context) (i : Nat) (query : String) : Delivery :=
  (Fate.replied (s.replies i)).delivery c query (c.request (s.turns i).now query .instant)

/-- What is delivered for the queries of a batch, in their order. -/
def deliveries (c : Context) (queries : List String) : List Delivery :=
  queries.mapIdx (s.delivery c)

end Schedule

variable {c : Context} {p : Pool} {s : Schedule} {qs : List (String × Option String)}

/-- What is delivered is about the queries, in their order. -/
theorem Schedule.query_deliveries (s : Schedule) (c : Context) (queries : List String) :
    (s.deliveries c queries).map Delivery.query = queries := by
  refine List.ext_getElem? fun i => ?_
  rw [List.getElem?_map, deliveries, List.getElem?_mapIdx]
  cases queries[i]? with
  | none => rfl
  | some q => exact congrArg some (Fate.query_delivery c q _ _)

theorem Event.Advances.place? {e : Event} (h : e.Advances) : ∃ i, e.place? = some i := by
  cases h <;> exact ⟨_, rfl⟩

theorem Event.Advances.ne_drop {e : Event} (h : e.Advances) (i : Nat) : e ≠ .drop i := by
  rintro rfl
  cases h

/-! ## Places -/

theorem length_advances {es : List Event} (h : ∀ e ∈ es, e.Advances) :
    (run c p es).tasks.length = p.tasks.length := by
  induction es generalizing p with
  | nil => rfl
  | cons e es ih =>
    obtain ⟨he, hes⟩ := List.forall_mem_cons.mp h
    obtain ⟨i, hi⟩ := he.place?
    rw [run_cons, ih hes, length_step hi]

/-- The pool once a query of a batch was started and had its turn. -/
theorem length_turn {turn : Turn} (h : ∀ e ∈ turn.meanwhile, e.Advances) (query : String)
    (label : Option String) :
    (run c p (.start turn.now query .instant (.handle label) :: turn.meanwhile)).tasks.length =
      p.tasks.length + 1 := by
  rw [run_cons, length_advances h]
  exact List.length_append

theorem length_interleaved {turns : Nat → Turn} (h : Advancing turns) :
    (run c p (interleaved turns qs)).tasks.length = p.tasks.length + qs.length := by
  induction qs generalizing p turns with
  | nil => rfl
  | cons q qs ih =>
    rw [interleaved, ← List.cons_append, run_append, ih h.next, length_turn (h 0), List.length_cons]
    omega

/-- The queries of a batch have the places after those that were there. -/
theorem getElem?_handles {turns : Nat → Turn} (h : Advancing turns) {i : Nat}
    (hi : i < qs.length) : (handles c p turns qs)[i]? = some (p.tasks.length + i) := by
  induction qs generalizing p turns i with
  | nil => exact absurd hi (Nat.not_lt_zero i)
  | cons q qs ih =>
    cases i with
    | zero => rfl
    | succ i =>
      rw [handles, List.getElem?_cons_succ, ih h.next (Nat.lt_of_succ_lt_succ hi),
        length_turn (h 0), Nat.add_assoc, Nat.add_comm 1]

/-! ## Deliveries -/

/-- An event of a batch starts a query of it or takes one further. -/
theorem mem_interleaved {turns : Nat → Turn} {e : Event} (he : e ∈ interleaved turns qs)
    (h : Advancing turns) :
    (∃ now query kind waiting, e = .start now query kind waiting) ∨ e.Advances := by
  induction qs generalizing turns with
  | nil => cases he
  | cons q qs ih =>
    rw [interleaved, List.mem_cons, List.mem_append] at he
    rcases he with rfl | he | he
    · exact .inl ⟨_, _, _, _, rfl⟩
    · exact .inr (h 0 e he)
    · exact ih he h.next

/-- Where the query of a number is started in a schedule. -/
theorem Schedule.Complete.split (hs : s.Complete qs) {i : Nat} {query : String}
    {label : Option String} (hq : qs[i]? = some (query, label)) (hp : p.tasks = []) :
    ∃ earlier, i = (run c p earlier).tasks.length ∧ s.events qs =
      earlier ++ .start (s.turns i).now query .instant (.handle label) :: s.after qs i := by
  have hi : i < qs.length := (List.getElem?_eq_some_iff.mp hq).1
  have hj := getElem?_handles (c := c) (p := p) hs.meanwhile hi
  rw [hp, List.length_nil, Nat.zero_add] at hj
  obtain ⟨earlier, hearlier, hsplit⟩ := interleaved_split hq hj
  exact ⟨earlier, hearlier, by rw [Schedule.events, hsplit, List.append_assoc]; rfl⟩

/-- No handle of a batch that is run to its end is given up. -/
theorem Schedule.Complete.drop_not_mem (hs : s.Complete qs) (i : Nat) : .drop i ∉ s.events qs := by
  intro h
  rcases List.mem_append.mp h with h | h
  · rcases mem_interleaved h hs.meanwhile with ⟨now, query, kind, waiting, he⟩ | he
    · cases he
    · exact he.ne_drop i rfl
  · exact (hs.rest _ h).ne_drop i rfl

/-- A query that was started as a task and got a reply came to what that makes. -/
theorem result?_start_replied (hp : p.Faithful) (now : Instant) (query : String)
    (label : Option String) {after : List Event} {reply : Reply}
    (hf : fateOf (own p.tasks.length after) = some (.replied reply)) :
    (run c p (.start now query .instant (.handle label) :: after)).result? p.tasks.length =
      some ((Fate.replied reply).delivery c query (c.request now query .instant)) := by
  have ht := (part_start (c := c) hp now query .instant label after).1
  have hfollows := Task.follows_run (c := c) (t := begun c now query .instant label) rfl rfl
    (own p.tasks.length after)
  rw [hf] at hfollows
  have houtcome : ((begun c now query .instant label).run c
      (own p.tasks.length after)).stage.outcome? = some _ := hfollows
  rw [result?, ht, Option.bind_some, Task.result?, houtcome, Task.query_run, Fate.delivery_replied]
  rfl

/-- The handle of each query gives what the reply to the query makes, and that is what the query
came to. -/
theorem given_complete (hs : s.Complete qs) (hf : p.Faithful) (hp : p.tasks = []) {i : Nat}
    {query : String} {label : Option String} (hq : qs[i]? = some (query, label)) :
    (run c p (s.events qs)).given i = [s.delivery c i query] ∧
      (run c p (s.events qs)).result? i = some (s.delivery c i query) := by
  obtain ⟨earlier, hi, hsplit⟩ := hs.split (c := c) hq hp
  have hlt : i < qs.length := (List.getElem?_eq_some_iff.mp hq).1
  have hdrop : .drop i ∉ s.after qs i := fun h => by
    refine hs.drop_not_mem i ?_
    rw [hsplit]
    exact List.mem_append_right _ (List.mem_cons_of_mem _ h)
  have hearlier : (run c p earlier).Faithful := hf.run earlier
  have hfate := hs.fate i hlt
  obtain ⟨elapsed, hcourse⟩ := hs.course i hlt
  -- From where the query is started it has the place of its number and has seen nothing yet.
  rw [hsplit, run_append]
  subst hi
  exact ⟨given_start_of_course hearlier _ query .instant label _ hfate hcourse hdrop,
    result?_start_replied hearlier _ query label hfate⟩

theorem getElem?_deliveries (c : Context) {i : Nat} {query : String} {label : Option String}
    (hq : qs[i]? = some (query, label)) :
    (s.deliveries c (qs.map Prod.fst))[i]? = some (s.delivery c i query) := by
  rw [Schedule.deliveries, List.getElem?_mapIdx, List.getElem?_map, hq]
  rfl

/-- A batch has as many queries when it is run to its end. -/
theorem length_complete (hs : s.Complete qs) (hp : p.tasks = []) :
    (run c p (s.events qs)).tasks.length = qs.length := by
  rw [Schedule.events, run_append, length_advances hs.rest, length_interleaved hs.meanwhile, hp,
    List.length_nil, Nat.zero_add]

/-- What the queries came to that have made a report is what is delivered for the batch. -/
theorem results_complete (hs : s.Complete qs) (hf : p.Faithful) (ha : p.Accounted)
    (hp : p.tasks = []) :
    (run c p (s.events qs)).results.Perm (s.deliveries c (qs.map Prod.fst)) := by
  have haccounted : (run c p (s.events qs)).Accounted :=
    run_induction (fun _ e h => h.step e) ha _
  have hlength : (run c p (s.events qs)).tasks.length = qs.length := length_complete hs hp
  have hdeliveries : (s.deliveries c (qs.map Prod.fst)).length = qs.length := by
    rw [Schedule.deliveries, List.length_mapIdx, List.length_map]
  -- Both lists are read off place by place, and at each place there is the query's own delivery.
  have htasks := Places.filterMap_range_getElem? Task.result? (run c p (s.events qs)).tasks
  have hall := Places.filterMap_range_getElem? some (s.deliveries c (qs.map Prod.fst))
  rw [hlength] at htasks
  rw [hdeliveries, List.filterMap_some] at hall
  have hsame : (List.range qs.length).filterMap
      (fun i => (run c p (s.events qs)).tasks[i]?.bind Task.result?) =
        (List.range qs.length).filterMap
          fun i => (s.deliveries c (qs.map Prod.fst))[i]?.bind some := by
    refine List.filterMap_congr fun i hi => ?_
    have hq := List.getElem?_eq_getElem (List.mem_range.mp hi)
    rw [getElem?_deliveries c hq]
    exact (given_complete hs hf hp hq).2
  rw [← hall, ← hsame, htasks]
  exact haccounted.results_perm

/-! ## Latencies -/

theorem Event.Advances.label?_eq_none {e : Event} (h : e.Advances) : e.label? = none := by
  cases h <;> rfl

/-- The labels that the queries of a batch are started under are those of the batch. -/
theorem labels_interleaved {turns : Nat → Turn} (h : Advancing turns) :
    (interleaved turns qs).filterMap Event.label? = qs.filterMap Prod.snd := by
  induction qs generalizing turns with
  | nil => rfl
  | cons q qs ih =>
    have hmeanwhile : (turns 0).meanwhile.filterMap Event.label? = [] :=
      List.filterMap_eq_nil_iff.mpr fun e he => (h 0 e he).label?_eq_none
    have hstart : Event.label? (.start (turns 0).now q.1 .instant (.handle q.2)) = q.2 := by
      rcases q with ⟨query, _ | label⟩ <;> rfl
    rw [interleaved, Places.filterMap_cons_toList, List.filterMap_append, hmeanwhile, ih h.next,
      hstart, Places.filterMap_cons_toList]
    rfl

theorem labels_events (hs : s.Complete qs) :
    (s.events qs).filterMap Event.label? = qs.filterMap Prod.snd := by
  have hrest : s.rest.filterMap Event.label? = [] :=
    List.filterMap_eq_nil_iff.mpr fun e he => (hs.rest e he).label?_eq_none
  rw [Schedule.events, List.filterMap_append, hrest, List.append_nil,
    labels_interleaved hs.meanwhile]

/-- How far each query of a batch is after a run of the batch is told by its own events. -/
theorem getElem?_complete (hs : s.Complete qs) (hf : p.Faithful) (hp : p.tasks = []) {i : Nat}
    {query : String} {label : Option String} (hq : qs[i]? = some (query, label)) :
    (run c p (s.events qs)).tasks[i]? =
      some ((begun c (s.turns i).now query .instant label).run c (own i (s.after qs i))) := by
  obtain ⟨earlier, hi, hsplit⟩ := hs.split (c := c) hq hp
  have hearlier : (run c p earlier).Faithful := hf.run earlier
  rw [hsplit, run_append]
  subst hi
  exact (part_start hearlier _ query .instant label _).1

/-- A batch that is run to its end has recorded one latency under each of its labels. -/
theorem profiled_complete (hs : s.Complete qs) (hf : p.Faithful) (ht : p.tasks = [])
    (hp : p.profiled = []) : (run c p (s.events qs)).profiled.Perm (qs.filterMap Prod.snd) := by
  rw [← labels_events hs]
  refine (profiled_labels c ht hp (s.events qs)).2 fun t hmem hlabel => ?_
  obtain ⟨i, hi⟩ := List.mem_iff_getElem?.mp hmem
  have hlt : i < qs.length := by
    rw [← length_complete (c := c) hs ht]
    exact (List.getElem?_eq_some_iff.mp hi).1
  obtain ⟨elapsed, hcourse⟩ := hs.course i hlt
  obtain rfl := Option.some.inj
    (hi.symm.trans (getElem?_complete hs hf ht (List.getElem?_eq_getElem hlt)))
  rw [Task.recorded?_of_course rfl rfl (hs.fate i hlt) (course_sublist_own hcourse)]
  exact hlabel

end MetricsQuery.Pool

/-! ## Sessions -/

namespace MetricsQuery.Session

open Pool (Schedule Turn interleaved later nextTurns own)

variable (c : Context) (env : Surroundings) (qs : List (String × Option String)) (s : Session)

/-- The reply to the query of a number, which is sent after those before it. -/
def replyAt (i : Nat) : Reply :=
  reply c env ((qs[i]?.map Prod.fst).getD "") .instant (spawnAll c env (qs.take i) s).2

/-- A session runs a batch query by query: each has run its course when the next is started. -/
def schedule : Schedule where
  turns i := ⟨env.now, (Fate.replied (replyAt c env qs s i)).course (s.place + i) env.latency⟩
  replies := replyAt c env qs s

/-- Each query of the schedule is sent now, after those before it, and its reply is the answer of the
backend. -/
def AnsweredBy (queries : List String) (s : Schedule) : Prop :=
  ∀ i q, queries[i]? = some q → (s.turns i).now = env.now ∧
    s.replies i = env.backend.answer
      ((queries.take i).map fun q => c.request env.now q .instant) (c.request env.now q .instant)

variable {c env qs s}

theorem nextTurns_schedule (q : String × Option String) :
    nextTurns (schedule c env (q :: qs) s).turns =
      (schedule c env qs (spawn c env q.1 .instant q.2 s).2).turns := by
  funext i
  have hplace : s.place + (i + 1) = (spawn c env q.1 .instant q.2 s).2.place + i := by
    rw [place_spawn]
    omega
  show Turn.mk env.now (Fate.course (s.place + (i + 1)) env.latency _) = Turn.mk env.now _
  rw [hplace]
  rfl

/-- The pool of a session in which a batch ran. -/
theorem toPool_spawnAll : (spawnAll c env qs s).2.toPool =
    Pool.run c s.toPool (interleaved (schedule c env qs s).turns qs) := by
  induction qs generalizing s with
  | nil => rfl
  | cons q qs ih =>
    have hrest : (spawnAll c env (q :: qs) s).2.toPool =
        Pool.run c (spawn c env q.1 .instant q.2 s).2.toPool
          (interleaved (schedule c env qs (spawn c env q.1 .instant q.2 s).2).turns qs) := ih
    rw [hrest, toPool_spawn, ← Pool.run_append, interleaved, nextTurns_schedule]
    rfl

/-- What is given back for a batch is what is delivered in its schedule. -/
theorem spawnAll_eq_deliveries :
    (spawnAll c env qs s).1 = (schedule c env qs s).deliveries c (qs.map Prod.fst) := by
  induction qs generalizing s with
  | nil => rfl
  | cons q qs ih =>
    have hfirst : (spawn c env q.1 .instant q.2 s).1 =
        (schedule c env (q :: qs) s).delivery c 0 q.1 := by
      rw [Schedule.delivery, Fate.delivery_replied]
      rfl
    rw [List.map_cons, Schedule.deliveries, List.mapIdx_cons, ← hfirst]
    exact congrArg _ (ih (s := (spawn c env q.1 .instant q.2 s).2))

/-- A query runs its course right after it is started. -/
theorem later_schedule (c : Context) (env : Surroundings) (s : Session) {i : Nat}
    (hi : i < qs.length) :
    ∃ rest, later (schedule c env qs s).turns qs i =
      (Fate.replied (replyAt c env qs s i)).course (s.place + i) env.latency ++ rest := by
  induction qs generalizing s i with
  | nil => exact absurd hi (Nat.not_lt_zero i)
  | cons q qs ih =>
    cases i with
    | zero => exact ⟨_, rfl⟩
    | succ i =>
      obtain ⟨rest, hrest⟩ := ih (spawn c env q.1 .instant q.2 s).2 (Nat.lt_of_succ_lt_succ hi)
      refine ⟨rest, ?_⟩
      rw [later, nextTurns_schedule, hrest, place_spawn, Nat.add_assoc, Nat.add_comm 1]
      rfl

/-- A session runs a batch to its end. -/
theorem complete_schedule (hs : s.tasks = []) : (schedule c env qs s).Complete qs where
  meanwhile i e he := by
    have hcourse : e ∈ (Fate.replied (replyAt c env qs s i)).course (s.place + i) env.latency := he
    simp only [Fate.course, List.mem_cons, List.not_mem_nil, or_false] at hcourse
    rcases hcourse with rfl | rfl | rfl | rfl
    · exact .settle _ _
    · exact .time _ _
    · exact .deliver _
    · exact .read _
  rest e he := absurd he List.not_mem_nil
  fate i hi := by
    obtain ⟨rest, hrest⟩ := later_schedule c env s hi
    have hplace : s.place + i = i := by rw [place, hs, List.length_nil, Nat.zero_add]
    have hown : ∀ es es', own i (es ++ es') = own i es ++ own i es' := fun _ _ =>
      List.filter_append ..
    rw [Schedule.after, hrest, hplace, List.append_assoc, hown, Pool.own_course, fateOf_append,
      Pool.fateOf_course]
    rfl
  course i hi := by
    obtain ⟨rest, hrest⟩ := later_schedule c env s hi
    have hplace : s.place + i = i := by rw [place, hs, List.length_nil, Nat.zero_add]
    refine ⟨env.latency, ?_⟩
    rw [Schedule.after, hrest, hplace, List.append_assoc]
    exact List.sublist_append_left _ _

/-- A session sends a batch to its backend. -/
theorem answeredBy_schedule (hs : s.sent = []) :
    AnsweredBy c env (qs.map Prod.fst) (schedule c env qs s) := by
  intro i q hq
  rw [List.getElem?_map] at hq
  refine ⟨rfl, ?_⟩
  show replyAt c env qs s i = _
  rw [replyAt, hq, Option.getD_some, reply, sent_spawnAll, hs, List.nil_append, ← List.map_take,
    List.map_map]
  rfl

end MetricsQuery.Session
