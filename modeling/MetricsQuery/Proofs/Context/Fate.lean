import MetricsQuery.Proofs.Context.Frame
import Mathlib.Data.List.Induction

/-!
# What becomes of a task

The fate of a task is the first event that settles or destroys it (`fateOf`). A task follows its fate
(`follows_run`): its stage has the outcome of the reply, or it is lost. So its handle gives nothing,
or the one delivery that the fate makes (`handle_after`), and it does give that once the task has run
its course and the handle is read (`readings_of_course`).
-/

namespace MetricsQuery

/-- How a task ends: with a reply to its query, or destroyed before there was one. -/
inductive Fate where
  | replied (reply : Reply)
  | destroyed

namespace Fate

/-- What is delivered for a query whose task has that fate. -/
def delivery (c : Context) (query : String) (r : Request) : Fate → Delivery
  | replied reply =>
    match c.execute query (r.body query reply) with
    | .finished o _ => .ofOutcome query o
    | .panicked text => ⟨query, [], [], some (.task query (.panicked text))⟩
  | destroyed => ⟨query, [], [], some (.task query .undelivered)⟩

/-- The events of a task with that fate that ends and whose handle is read then. -/
def course (i : Nat) (elapsed : Duration) : Fate → List Pool.Event
  | replied reply => [.settle i reply, .time i elapsed, .deliver i, .read i]
  | destroyed => [.destroy i, .read i]

theorem delivery_replied (c : Context) (query : String) (r : Request) (reply : Reply) :
    delivery c query r (.replied reply) =
      .ofOutcome query ((c.execute query (r.body query reply)).caught query).1 := by
  simp only [delivery]
  cases c.execute query (r.body query reply) <;> rfl

@[simp] theorem query_delivery (c : Context) (query : String) (r : Request) (f : Fate) :
    (f.delivery c query r).query = query := by
  cases f with
  | replied reply =>
    rw [delivery_replied, Delivery.ofOutcome]
    split <;> rfl
  | destroyed => rfl

end Fate

/-- The fate that an event is to a task that has none yet. -/
def Pool.Event.fate? : Pool.Event → Option Fate
  | settle _ reply => some (.replied reply)
  | destroy _ => some .destroyed
  | _ => none

/-- The fate of a task at events that are about it. -/
def fateOf (es : List Pool.Event) : Option Fate := es.findSome? Pool.Event.fate?

theorem fateOf_append (es es' : List Pool.Event) :
    fateOf (es ++ es') = (fateOf es).or (fateOf es') := List.findSome?_append

theorem fateOf_concat (es : List Pool.Event) (e : Pool.Event) :
    fateOf (es ++ [e]) = (fateOf es).or e.fate? := by
  rw [fateOf_append, fateOf, fateOf, List.findSome?_singleton]

/-- A fate is for good. -/
theorem fateOf_stable {es es' : List Pool.Event} {e : Pool.Event} {f : Fate} (he : e ∈ es)
    (hf : e.fate?.isSome) (h : fateOf (es ++ es') = some f) : fateOf es = some f := by
  cases hes : fateOf es with
  | none =>
    rw [List.findSome?_eq_none_iff.mp hes e he] at hf
    exact absurd hf Bool.false_ne_true
  | some g => rwa [fateOf_append, hes] at h

/-! ## Following a fate -/

namespace Stage

/-- The stage of a query is one that its fate leads to. -/
def Follows (c : Context) (query : String) (r : Request) : Option Fate → Stage → Prop
  | none, s => s = .awaiting
  | some (.replied reply), s =>
    s.outcome? = some ((c.execute query (r.body query reply)).caught query).1
  | some .destroyed, s => s = .lost

end Stage

namespace Task

variable {c : Context} {t : Task} {label : Option String}

theorem follows_step {f : Option Fate} (hw : t.waiting = .handle label)
    (h : t.stage.Follows c t.query t.request f) (e : Pool.Event) :
    (t.step c e).stage.Follows c t.query t.request (f.or e.fate?) := by
  match f, h with
  | none, (h : t.stage = .awaiting) =>
    rw [Option.none_or]
    cases e with
    | settle i reply =>
      simp only [step, h, settle, hw]
      rfl
    | destroy i =>
      simp only [step, h]
      rfl
    | time i elapsed =>
      simp only [step, h, hw]
      rfl
    | deliver i =>
      simp only [step, h]
      rfl
    | read i =>
      simp only [step]
      split <;> exact h
    | _ => exact h
  | some (.replied reply), h => exact outcome?_step e h
  | some .destroyed, h => exact lost_step e h

/-- A task that was just started follows its fate. -/
theorem follows_run (hw : t.waiting = .handle label) (hs : t.stage = .awaiting)
    (es : List Pool.Event) :
    (t.run c es).stage.Follows c t.query t.request (fateOf es) := by
  induction es using List.reverseRecOn with
  | nil => exact hs
  | append_singleton es e ih =>
    rw [run_append, fateOf_concat]
    have h := follows_step (c := c) (t := t.run c es) ((waiting_run c t es).trans hw)
      (f := fateOf es) (by rw [query_run, request_run]; exact ih) e
    rw [query_run, request_run] at h
    exact h

/-- What there is to be read of a task is the delivery that its fate makes. -/
theorem delivery?_of_follows {f : Option Fate} (h : t.stage.Follows c t.query t.request f)
    {d : Delivery} (hd : t.delivery? = some d) :
    ∃ g, f = some g ∧ d = g.delivery c t.query t.request := by
  unfold delivery? at hd
  split at hd
  · next o _ hs =>
    match f, h with
    | none, h => rw [hs] at h; cases h
    | some (.replied reply), h =>
      rw [hs] at h
      obtain rfl : o = _ := Option.some.inj h
      exact ⟨_, rfl, by rw [Fate.delivery_replied]; exact (Option.some.inj hd).symm⟩
    | some .destroyed, h => rw [hs] at h; cases h
  · next hs =>
    match f, h with
    | none, h => rw [hs] at h; cases h
    | some (.replied reply), h => rw [hs] at h; cases h
    | some .destroyed, _ => exact ⟨_, rfl, (Option.some.inj hd).symm⟩
  · cases hd

/-! ## Reading -/

/-- A handle is held until it is dropped or read. -/
theorem held_step (h : t.held = true) (e : Pool.Event) :
    ((t.step c e).held = true ∧ t.reading? e = none) ∨
      ((t.step c e).held = false ∧ t.reading? e = none ∧ ∃ i, e = .drop i) ∨
      ((t.step c e).held = false ∧ ∃ d, t.reading? e = some d ∧ t.delivery? = some d) := by
  cases e with
  | start => exact .inl ⟨h, rfl⟩
  | drop i => exact .inr (.inl ⟨rfl, rfl, i, rfl⟩)
  | read i =>
    cases hd : t.delivery? with
    | none => exact .inl ⟨by simp only [step, h, hd], by simp only [reading?, h, if_true, hd]⟩
    | some d =>
      refine .inr (.inr ⟨by simp only [step, h, hd], d, ?_, rfl⟩)
      simp only [reading?, h, if_true, hd]
  | _ =>
    refine .inl ⟨?_, rfl⟩
    simp only [step]
    split <;> exact h

/-- A handle that is gone gives nothing and does not come back. -/
theorem gone_step (h : t.held = false) (e : Pool.Event) :
    (t.step c e).held = false ∧ t.reading? e = none := by
  cases e with
  | start => exact ⟨h, rfl⟩
  | drop i => exact ⟨rfl, rfl⟩
  | read i =>
    refine ⟨by simp only [step, h], ?_⟩
    rw [reading?, if_neg (by rw [h]; exact Bool.false_ne_true)]
  | _ =>
    refine ⟨?_, rfl⟩
    simp only [step]
    split <;> exact h

/-- What became of the handle of a task by the events about it. -/
inductive HandleAfter (c : Context) (t : Task) (es : List Pool.Event) : Prop
  | held (hh : (t.run c es).held = true) (hd : t.readings c es = [])
  | dropped {i : Nat} (he : .drop i ∈ es) (hh : (t.run c es).held = false)
    (hd : t.readings c es = [])
  | read {f : Fate} (hf : fateOf es = some f) (hh : (t.run c es).held = false)
    (hd : t.readings c es = [f.delivery c t.query t.request])

/-- The handle of a task is held, was dropped unread, or gave the one delivery that the task's fate
makes. -/
theorem handle_after (hw : t.waiting = .handle label) (hs : t.stage = .awaiting)
    (hh : t.held = true) (es : List Pool.Event) : HandleAfter c t es := by
  -- From the end: what is given at an event is told by how far the task is there.
  induction es using List.reverseRecOn with
  | nil => exact .held hh rfl
  | append_singleton es e ih =>
    have hread := t.readings_concat c es e
    have hrun := t.run_append c es [e]
    rw [run_cons, run_nil] at hrun
    cases ih with
    | held hh hd =>
      rw [hd, List.nil_append] at hread
      rcases held_step (c := c) hh e with ⟨hh, hr⟩ | ⟨hh, hr, i, rfl⟩ | ⟨hh, d, hr, hd⟩
      · exact .held (hrun ▸ hh) (by rw [hread, hr]; rfl)
      · exact .dropped (List.mem_append_right _ (List.mem_singleton_self _)) (hrun ▸ hh)
          (by rw [hread, hr]; rfl)
      · have hfollows := follows_run (c := c) hw hs es
        rw [← query_run c t es, ← request_run c t es] at hfollows
        obtain ⟨f, hf, rfl⟩ := delivery?_of_follows hfollows hd
        refine .read (f := f) (by rw [fateOf_concat, hf]; rfl) (hrun ▸ hh) ?_
        rw [hread, hr, query_run, request_run]
        rfl
    | dropped he hh hd =>
      obtain ⟨hh, hr⟩ := gone_step (c := c) hh e
      exact .dropped (List.mem_append_left _ he) (hrun ▸ hh) (by rw [hread, hd, hr]; rfl)
    | read hf hh hd =>
      obtain ⟨hh, hr⟩ := gone_step (c := c) hh e
      exact .read (by rw [fateOf_concat, hf]; rfl) (hrun ▸ hh) (by rw [hread, hd, hr]; rfl)

end Task

/-! ## Running its course -/

/-- How far a stage with an outcome is on the way to where a handle can read it. -/
def Stage.rank : Stage → Nat
  | timed _ => 1
  | delivered _ => 2
  | _ => 0

theorem Stage.eq_delivered {s : Stage} (h : 2 ≤ s.rank) : ∃ o, s = .delivered o := by
  cases s with
  | delivered o => exact ⟨o, rfl⟩
  | timed => exact absurd h (Nat.not_succ_le_self 1)
  | _ => exact absurd h (Nat.not_succ_le_zero 1)

/-- The rank that an event takes a task with an outcome on from. -/
def Pool.Event.rank? : Pool.Event → Option Nat
  | time .. => some 0
  | deliver _ => some 1
  | _ => none

namespace Task

variable {c : Context} {t : Task} {label : Option String} {o : Outcome}

/-- A task with an outcome never falls back. -/
theorem rank_le_step (ho : t.stage.outcome? = some o) (e : Pool.Event) :
    t.stage.rank ≤ (t.step c e).stage.rank := by
  cases e with
  | settle i reply =>
    simp only [step]
    split
    · next hs => rw [hs] at ho; cases ho
    · exact Nat.le_refl _
  | time i elapsed =>
    simp only [step]
    split
    · next hs => rw [hs]; exact Nat.zero_le _
    · exact Nat.le_refl _
  | deliver i =>
    simp only [step]
    split
    · next hs => rw [hs]; exact Nat.le_succ 1
    · exact Nat.le_refl _
  | destroy i =>
    simp only [step]
    split
    · next hs => rw [hs] at ho; cases ho
    · exact Nat.le_refl _
  | read i =>
    simp only [step]
    split <;> exact Nat.le_refl _
  | _ => exact Nat.le_refl _

/-- An event that fits how far a task is takes it on. -/
theorem rank_step (hw : t.waiting = .handle label) (ho : t.stage.outcome? = some o) {e : Pool.Event}
    {n : Nat} (he : e.rank? = some n) (hn : n ≤ t.stage.rank) :
    n + 1 ≤ (t.step c e).stage.rank := by
  cases e with
  | time i elapsed =>
    cases he
    cases hs : t.stage with
    | settled o => simp only [step, hw, hs]; exact Nat.le_refl _
    | timed o => simp only [step, hw, hs]; exact Nat.le_refl _
    | delivered o => simp only [step, hw, hs]; exact Nat.le_succ 1
    | _ => rw [hs] at ho; cases ho
  | deliver i =>
    cases he
    cases hs : t.stage with
    | timed o => simp only [step, hs]; exact Nat.le_refl _
    | delivered o => simp only [step, hs]; exact Nat.le_refl _
    | _ => rw [hs] at hn; cases hn
  | _ => cases he

theorem outcome?_run (ho : t.stage.outcome? = some o) (es : List Pool.Event) :
    (t.run c es).stage.outcome? = some o := by
  induction es generalizing t with
  | nil => exact ho
  | cons e es ih => exact ih (outcome?_step e ho)

theorem lost_run (h : t.stage = .lost) (es : List Pool.Event) : (t.run c es).stage = .lost := by
  induction es generalizing t with
  | nil => exact h
  | cons e es ih => exact ih (lost_step e h)

theorem rank_le_run (ho : t.stage.outcome? = some o) (es : List Pool.Event) :
    t.stage.rank ≤ (t.run c es).stage.rank := by
  induction es generalizing t with
  | nil => exact Nat.le_refl _
  | cons e es ih => exact Nat.le_trans (rank_le_step ho e) (ih (outcome?_step e ho))

/-- A task is past an event that fits, whatever stands before it and after it. -/
theorem rank_run (hw : t.waiting = .handle label) (ho : t.stage.outcome? = some o)
    {es : List Pool.Event} {e : Pool.Event} (hmem : e ∈ es) {n : Nat} (he : e.rank? = some n)
    (hn : n ≤ t.stage.rank) : n + 1 ≤ (t.run c es).stage.rank := by
  obtain ⟨before, after, rfl⟩ := List.append_of_mem hmem
  rw [run_append, run_cons]
  have hbefore := outcome?_run (c := c) ho before
  have hstep := rank_step (c := c) ((waiting_run c t before).trans hw) hbefore he
    (Nat.le_trans hn (rank_le_run ho before))
  exact Nat.le_trans hstep (rank_le_run (outcome?_step e hbefore) after)

/-- A task that went all the way can be read. -/
theorem delivery?_of_rank (hw : t.waiting = .handle label) (h : 2 ≤ t.stage.rank) :
    ∃ d, t.delivery? = some d := by
  obtain ⟨o, hs⟩ := Stage.eq_delivered h
  exact ⟨.ofOutcome t.query o, by simp only [delivery?, hw, hs]⟩

theorem delivery?_of_lost (hw : t.waiting = .handle label) (h : t.stage = .lost) :
    t.delivery? = some (.missing t.query) := by
  simp only [delivery?, hw, h]

/-- Between its outcome and the reading of its handle, a task goes all the way. -/
theorem rank_of_course (hw : t.waiting = .handle label) (ho : t.stage.outcome? = some o)
    {es : List Pool.Event} {i : Nat} {elapsed : Duration}
    (hc : [.time i elapsed, .deliver i, .read i].Sublist es) :
    ∃ before after, es = before ++ .read i :: after ∧ 2 ≤ (t.run c before).stage.rank := by
  obtain ⟨es₁, es₂, rfl, htime, hc⟩ := List.cons_sublist_iff.mp hc
  obtain ⟨es₂, es₃, rfl, hdeliver, hc⟩ := List.cons_sublist_iff.mp hc
  obtain ⟨before, after, rfl⟩ := List.append_of_mem (List.singleton_sublist.mp hc)
  refine ⟨es₁ ++ es₂ ++ before, after, by simp only [List.append_assoc], ?_⟩
  have ho₁ := outcome?_run (c := c) ho es₁
  have htimed : 1 ≤ (t.run c es₁).stage.rank := rank_run hw ho htime rfl (Nat.zero_le _)
  have hdelivered : 2 ≤ ((t.run c es₁).run c es₂).stage.rank :=
    rank_run ((waiting_run c t es₁).trans hw) ho₁ hdeliver rfl htimed
  rw [run_append, run_append]
  exact Nat.le_trans hdelivered (rank_le_run (outcome?_run ho₁ es₂) before)

/-- A task that runs its course with a reply goes all the way before its handle is read. -/
theorem rank_of_replied (hw : t.waiting = .handle label) (hs : t.stage = .awaiting)
    {es : List Pool.Event} {reply : Reply} {i : Nat} {elapsed : Duration}
    (hf : fateOf es = some (.replied reply))
    (hc : ((Fate.replied reply).course i elapsed).Sublist es) :
    ∃ before after, es = before ++ .read i :: after ∧ 2 ≤ (t.run c before).stage.rank := by
  obtain ⟨es₁, es₂, rfl, hsettle, hc⟩ := List.cons_sublist_iff.mp hc
  have hfollows := follows_run (c := c) hw hs es₁
  rw [fateOf_stable hsettle rfl hf] at hfollows
  obtain ⟨before, after, rfl, hrank⟩ :=
    rank_of_course (c := c) ((waiting_run c t es₁).trans hw) hfollows hc
  rw [← run_append] at hrank
  exact ⟨es₁ ++ before, after, (List.append_assoc ..).symm, hrank⟩

/-- When a task has run its course, there is something to read where its handle is read. -/
theorem delivery?_of_course (hw : t.waiting = .handle label) (hs : t.stage = .awaiting)
    {es : List Pool.Event} {f : Fate} {i : Nat} {elapsed : Duration} (hf : fateOf es = some f)
    (hc : (f.course i elapsed).Sublist es) :
    ∃ before after d, es = before ++ .read i :: after ∧ (t.run c before).delivery? = some d := by
  have hw' : ∀ es, (t.run c es).waiting = .handle label := fun es => (waiting_run c t es).trans hw
  cases f with
  | replied reply =>
    obtain ⟨before, after, rfl, hrank⟩ := rank_of_replied (c := c) hw hs hf hc
    obtain ⟨d, hd⟩ := delivery?_of_rank (hw' before) hrank
    exact ⟨before, after, d, rfl, hd⟩
  | destroyed =>
    obtain ⟨es₁, es₂, rfl, hdestroy, hc⟩ := List.cons_sublist_iff.mp hc
    have hfollows := follows_run (c := c) hw hs es₁
    rw [fateOf_stable hdestroy rfl hf] at hfollows
    obtain ⟨before, after, rfl⟩ := List.append_of_mem (List.singleton_sublist.mp hc)
    have hlost := lost_run (c := c) hfollows before
    rw [← run_append] at hlost
    exact ⟨es₁ ++ before, after, _, (List.append_assoc ..).symm,
      delivery?_of_lost (hw' _) hlost⟩

/-- A handle that is read when there is something to read, and was not dropped, gave something. -/
theorem readings_ne_nil (hw : t.waiting = .handle label) (hs : t.stage = .awaiting)
    (hh : t.held = true) {before : List Pool.Event} {d : Delivery}
    (hd : (t.run c before).delivery? = some d) (hn : ∀ j, .drop j ∉ before) (i : Nat)
    (after : List Pool.Event) :
    t.readings c (before ++ .read i :: after) ≠ [] := by
  rw [readings_append]
  cases handle_after (c := c) hw hs hh before with
  | held hh _ =>
    have hr : (t.run c before).reading? (.read i) = some d := by
      simp only [reading?, hh, if_true, hd]
    rw [readings, hr]
    exact List.append_ne_nil_of_right_ne_nil _ (List.cons_ne_nil _ _)
  | dropped he => exact absurd he (hn _)
  | read _ _ hd =>
    rw [hd]
    exact List.cons_ne_nil _ _

/-- A task that runs its course gives the delivery that its fate makes, unless its handle is
dropped. -/
theorem readings_of_course (hw : t.waiting = .handle label) (hs : t.stage = .awaiting)
    (hh : t.held = true) {es : List Pool.Event} {f : Fate} {i : Nat} {elapsed : Duration}
    (hf : fateOf es = some f) (hc : (f.course i elapsed).Sublist es) (hn : ∀ j, .drop j ∉ es) :
    t.readings c es = [f.delivery c t.query t.request] := by
  obtain ⟨before, after, d, rfl, hd⟩ := delivery?_of_course (c := c) hw hs hf hc
  have hne := readings_ne_nil hw hs hh hd (fun j hj => hn j (List.mem_append_left _ hj)) i after
  cases handle_after (c := c) hw hs hh (before ++ .read i :: after) with
  | held _ hd => exact absurd hd hne
  | dropped he => exact absurd he (hn _)
  | read hf' _ hd =>
    obtain rfl := Option.some.inj (hf.symm.trans hf')
    exact hd

end Task

end MetricsQuery
