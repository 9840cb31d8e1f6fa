import MetricsQuery.Retry

/-!
# How a retry goes

A retry is watched by a world that also writes down what is done in it (`World.watched`), which
changes nothing (`retry_watched`). What is written down is a `Course`: rounds of a failed attempt, a
sleep and a draw, up to a boundary where the retry is cancelled or an attempt that ends it. All that
holds of courses is by induction on them: the order of the actions (`Course.linked`), what holds
where an attempt starts (`Course.starts`), and how the result is told by the attempts
(`Course.ended`). For retries it is put together in `retry_proceeds`.
-/

namespace MetricsQuery.Retry

variable {σ ε α : Type}

/-! ## Watching -/

/-- What a retry does to its surroundings. -/
inductive Action (ε α : Type) where
  | attempt (outcome : Except ε α)
  | sleep (delay : Duration)
  | draw (random : Nat)

/-- An action and the surroundings before and after it. -/
structure Entry (σ ε α : Type) where
  before : σ
  action : Action ε α
  after : σ

namespace Entry

/-- The outcome of an attempt. -/
def outcome? (e : Entry σ ε α) : Option (Except ε α) :=
  match e.action with
  | .attempt outcome => some outcome
  | _ => none

/-- The length of a sleep. -/
def delay? (e : Entry σ ε α) : Option Duration :=
  match e.action with
  | .sleep delay => some delay
  | _ => none

/-- The action has, in the world `w`, the effect that is written down. -/
def Happens (w : World σ ε α) (e : Entry σ ε α) : Prop :=
  match e.action with
  | .attempt outcome => w.attempt e.before = (outcome, e.after)
  | .sleep delay => w.sleep delay e.before = e.after
  | .draw random => w.draw e.before = (random, e.after)

end Entry

/-- The outcomes of the attempts, in their order. -/
def calls (es : List (Entry σ ε α)) : List (Except ε α) := es.filterMap Entry.outcome?

/-- None of the attempts succeeded. -/
def AllFailed (outcomes : List (Except ε α)) : Prop := ∀ outcome ∈ outcomes, ∃ e, outcome = .error e

/-- The errors of the attempts that failed, in their order. -/
def failures (outcomes : List (Except ε α)) : List ε :=
  outcomes.filterMap fun
    | .error e => some e
    | .ok _ => none

/-- The lengths of the sleeps, in their order. -/
def sleeps (es : List (Entry σ ε α)) : List Duration := es.filterMap Entry.delay?

/-- The world `w`, with all that is done in it written down. -/
def World.watched (w : World σ ε α) : World (σ × List (Entry σ ε α)) ε α where
  attempt s :=
    ((w.attempt s.1).1, (w.attempt s.1).2,
      s.2 ++ [⟨s.1, .attempt (w.attempt s.1).1, (w.attempt s.1).2⟩])
  isCancelled s := w.isCancelled s.1
  sleep delay s := (w.sleep delay s.1, s.2 ++ [⟨s.1, .sleep delay, w.sleep delay s.1⟩])
  draw s :=
    ((w.draw s.1).1, (w.draw s.1).2, s.2 ++ [⟨s.1, .draw (w.draw s.1).1, (w.draw s.1).2⟩])

/-- All that a retry does. -/
def history (w : World σ ε α) (n : Nat) (delay : Duration) (s : σ) : List (Entry σ ε α) :=
  (retry w.watched n delay (s, [])).2.2

/-- What is done from `s` on, up to `s'`, with the result it has; `n` attempts are left after the
next one, and the next sleep is one of `delay`. -/
inductive Course (w : World σ ε α) :
    Nat → Duration → σ → List (Entry σ ε α) → Except (Failure ε) α → σ → Prop
  | cancelled {n delay s} (hc : w.isCancelled s = true) :
    Course w n delay s [] (.error .cancelled) s
  | succeeded {n delay s a s'} (hc : w.isCancelled s = false) (ha : w.attempt s = (.ok a, s')) :
    Course w n delay s [⟨s, .attempt (.ok a), s'⟩] (.ok a) s'
  | exhausted {delay s e s'} (hc : w.isCancelled s = false) (ha : w.attempt s = (.error e, s')) :
    Course w 0 delay s [⟨s, .attempt (.error e), s'⟩] (.error (.exhausted e)) s'
  | again {n delay s e s₁ random s₂ es result s'} (hc : w.isCancelled s = false)
    (ha : w.attempt s = (.error e, s₁)) (hd : w.draw (w.sleep delay s₁) = (random, s₂))
    (h : Course w n (nextDelay delay random) s₂ es result s') :
    Course w (n + 1) delay s
      (⟨s, .attempt (.error e), s₁⟩ :: ⟨s₁, .sleep delay, w.sleep delay s₁⟩ ::
        ⟨w.sleep delay s₁, .draw random, s₂⟩ :: es) result s'

/-! ## One round -/

section

variable {w : World σ ε α} {n : Nat} {delay : Duration} {s s₁ s₂ : σ}

theorem attempts_cancelled (hc : w.isCancelled s = true) :
    attempts w n delay s = (.error .cancelled, s) := by
  rw [attempts, if_pos hc]

theorem attempts_succeeded {a : α} (hc : w.isCancelled s = false)
    (ha : w.attempt s = (.ok a, s₁)) : attempts w n delay s = (.ok a, s₁) := by
  rw [attempts, if_neg (Bool.eq_false_iff.mp hc), ha]

theorem attempts_exhausted {e : ε} (hc : w.isCancelled s = false)
    (ha : w.attempt s = (.error e, s₁)) :
    attempts w 0 delay s = (.error (.exhausted e), s₁) := by
  rw [attempts, if_neg (Bool.eq_false_iff.mp hc), ha]

theorem attempts_again {e : ε} {random : Nat} (hc : w.isCancelled s = false)
    (ha : w.attempt s = (.error e, s₁)) (hd : w.draw (w.sleep delay s₁) = (random, s₂)) :
    attempts w (n + 1) delay s = attempts w n (nextDelay delay random) s₂ := by
  rw [attempts, if_neg (Bool.eq_false_iff.mp hc), ha]
  simp only [hd]

/-- A round is watched as it goes. -/
theorem watched_attempt {outcome : Except ε α} (ha : w.attempt s = (outcome, s₁))
    (log : List (Entry σ ε α)) :
    w.watched.attempt (s, log) = (outcome, s₁, log ++ [⟨s, .attempt outcome, s₁⟩]) := by
  simp only [World.watched, ha]

theorem watched_draw {random : Nat} (hd : w.draw (w.sleep delay s₁) = (random, s₂))
    (log : List (Entry σ ε α)) :
    w.watched.draw (w.watched.sleep delay (s₁, log)) =
      (random, s₂, log ++ [⟨s₁, .sleep delay, w.sleep delay s₁⟩] ++
        [⟨w.sleep delay s₁, .draw random, s₂⟩]) := by
  simp only [World.watched, hd]

end

/-- Attempts that are watched are the same attempts, and what is written down is their course. -/
theorem attempts_watched (w : World σ ε α) (n : Nat) (delay : Duration) (s : σ) :
    ∃ es, Course w n delay s es (attempts w n delay s).1 (attempts w n delay s).2 ∧
      ∀ log, attempts w.watched n delay (s, log) =
        ((attempts w n delay s).1, (attempts w n delay s).2, log ++ es) := by
  -- Only after a failed attempt does it matter whether there is another one left.
  induction n using Nat.strongRecOn generalizing delay s with
  | ind n ih =>
    cases hc : w.isCancelled s with
    | true =>
      rw [attempts_cancelled hc]
      refine ⟨[], .cancelled hc, fun log => ?_⟩
      rw [attempts_cancelled (w := w.watched) (s := (s, log)) hc, List.append_nil]
    | false =>
      obtain ⟨outcome, s₁, ha⟩ : ∃ o s₁, w.attempt s = (o, s₁) := ⟨_, _, rfl⟩
      cases outcome with
      | ok a =>
        rw [attempts_succeeded hc ha]
        refine ⟨_, .succeeded hc ha, fun log => ?_⟩
        exact attempts_succeeded (w := w.watched) (s := (s, log)) hc (watched_attempt ha log)
      | error e =>
        cases n with
        | zero =>
          rw [attempts_exhausted hc ha]
          refine ⟨_, .exhausted hc ha, fun log => ?_⟩
          exact attempts_exhausted (w := w.watched) (s := (s, log)) hc (watched_attempt ha log)
        | succ n =>
          obtain ⟨random, s₂, hd⟩ : ∃ r s₂, w.draw (w.sleep delay s₁) = (r, s₂) := ⟨_, _, rfl⟩
          obtain ⟨es, hcourse, hlog⟩ := ih n (Nat.lt_succ_self n) (nextDelay delay random) s₂
          rw [attempts_again hc ha hd]
          refine ⟨_, .again hc ha hd hcourse, fun log => ?_⟩
          rw [attempts_again (w := w.watched) (s := (s, log)) hc (watched_attempt ha log)
            (watched_draw hd _), hlog]
          simp only [List.append_assoc, List.cons_append, List.nil_append]

theorem retry_watched (w : World σ ε α) (n : Nat) (delay : Duration) (s : σ) :
    retry w.watched n delay (s, []) =
      ((retry w n delay s).1, (retry w n delay s).2, history w n delay s) := by
  cases n with
  | zero => rfl
  | succ n =>
    obtain ⟨es, -, hlog⟩ := attempts_watched w n delay s
    have h : retry w.watched (n + 1) delay (s, []) = _ := hlog []
    rw [history, h]
    rfl

/-- What a retry does is the course of its attempts. -/
theorem course_history (w : World σ ε α) (n : Nat) (delay : Duration) (s : σ) :
    Course w n delay s (history w (n + 1) delay s) (retry w (n + 1) delay s).1
      (retry w (n + 1) delay s).2 := by
  obtain ⟨es, hcourse, hlog⟩ := attempts_watched w n delay s
  have h : retry w.watched (n + 1) delay (s, []) = _ := hlog []
  rw [history, h]
  exact hcourse

variable {w : World σ ε α} {n : Nat} {delay : Duration} {s s' : σ} {es : List (Entry σ ε α)}
  {result : Except (Failure ε) α}

/-! ## Worlds in which the same happens -/

section

variable {σ' : Type} {w' : World σ' ε α} {f : σ → σ'}

/-- In the world `w'` the same happens as in the world `w`, seen through `f`. -/
structure World.Maps (w : World σ ε α) (w' : World σ' ε α) (f : σ → σ') : Prop where
  attempt : ∀ s, w'.attempt (f s) = ((w.attempt s).1, f (w.attempt s).2)
  isCancelled : ∀ s, w'.isCancelled (f s) = w.isCancelled s
  sleep : ∀ delay s, w'.sleep delay (f s) = f (w.sleep delay s)
  draw : ∀ s, w'.draw (f s) = ((w.draw s).1, f (w.draw s).2)

/-- A course is that of attempts in the other world too. -/
theorem Course.attempts_map (h : Course w n delay s es result s') (hm : w.Maps w' f) :
    attempts w' n delay (f s) = (result, f s') := by
  induction h with
  | cancelled hc => exact attempts_cancelled ((hm.isCancelled _).trans hc)
  | succeeded hc ha =>
    exact attempts_succeeded ((hm.isCancelled _).trans hc) (by rw [hm.attempt, ha])
  | exhausted hc ha =>
    exact attempts_exhausted ((hm.isCancelled _).trans hc) (by rw [hm.attempt, ha])
  | again hc ha hd _ ih =>
    rw [attempts_again ((hm.isCancelled _).trans hc) (by rw [hm.attempt, ha])
      (by rw [hm.sleep, hm.draw, hd]), ih]

/-- A retry goes the same way in both worlds. -/
theorem World.Maps.retry_eq (hm : w.Maps w' f) (n : Nat) (delay : Duration) (s : σ) :
    retry w' n delay (f s) = ((retry w n delay s).1, f (retry w n delay s).2) := by
  cases n with
  | zero => rfl
  | succ n => exact (course_history w n delay s).attempts_map hm

end

/-! ## The order of the actions -/

/-- The actions happen one after another, from `s` to `s'`. -/
def Linked : σ → List (Entry σ ε α) → σ → Prop
  | s, [], s' => s = s'
  | s, e :: es, s' => e.before = s ∧ Linked e.after es s'

/-- A token that has fired stays so, whatever is done. -/
structure World.Stable (w : World σ ε α) : Prop where
  attempt : ∀ s, w.isCancelled s = true → w.isCancelled (w.attempt s).2 = true
  sleep : ∀ delay s, w.isCancelled s = true → w.isCancelled (w.sleep delay s) = true
  draw : ∀ s, w.isCancelled s = true → w.isCancelled (w.draw s).2 = true

/-- What holds where the action `e` starts an attempt after the actions `earlier`. -/
structure Starts (w : World σ ε α) (n : Nat) (earlier : List (Entry σ ε α)) (e : Entry σ ε α) :
    Prop where
  /-- The token has not fired. -/
  unfired : w.isCancelled e.before = false
  /-- All attempts before this one failed. -/
  failed : AllFailed (calls earlier)
  /-- Each of them has been slept after. -/
  slept : (sleeps earlier).length = (calls earlier).length
  /-- There were fewer than there may be. -/
  left : (calls earlier).length < n

namespace Course

theorem linked (h : Course w n delay s es result s') : Linked s es s' := by
  induction h with
  | cancelled => exact rfl
  | succeeded => exact ⟨rfl, rfl⟩
  | exhausted => exact ⟨rfl, rfl⟩
  | again _ _ _ _ ih => exact ⟨rfl, rfl, rfl, ih⟩

/-- Nothing is done once the token has fired. -/
theorem idle (h : Course w n delay s es result s') (hf : w.isCancelled s = true) :
    es = [] ∧ s' = s := by
  cases h with
  | cancelled => exact ⟨rfl, rfl⟩
  | succeeded hc | exhausted hc | again hc =>
    rw [hc] at hf
    cases hf

theorem happens (h : Course w n delay s es result s') : ∀ e ∈ es, e.Happens w := by
  induction h with
  | cancelled => exact fun e he => absurd he List.not_mem_nil
  | succeeded _ ha => exact List.forall_mem_singleton.mpr ha
  | exhausted _ ha => exact List.forall_mem_singleton.mpr ha
  | again _ ha hd _ ih => exact List.forall_mem_cons.mpr ⟨ha, List.forall_mem_cons.mpr
      ⟨rfl, List.forall_mem_cons.mpr ⟨hd, ih⟩⟩⟩

end Course

variable {e : Entry σ ε α}

/-- The first attempt. -/
theorem Starts.first (hc : w.isCancelled e.before = false) : Starts w (n + 1) [] e :=
  ⟨hc, fun _ h => absurd h List.not_mem_nil, rfl, Nat.succ_pos n⟩

/-- An attempt after one more round. -/
theorem Starts.later {earlier : List (Entry σ ε α)} {s₁ s₂ s₃ : σ} {x : ε} {random : Nat}
    (h : Starts w n earlier e) :
    Starts w (n + 1) (⟨s, .attempt (.error x), s₁⟩ :: ⟨s₁, .sleep delay, s₂⟩ ::
      ⟨s₂, .draw random, s₃⟩ :: earlier) e where
  unfired := h.unfired
  failed := List.forall_mem_cons.mpr ⟨⟨x, rfl⟩, h.failed⟩
  slept := congrArg (· + 1) h.slept
  left := Nat.succ_lt_succ h.left

/-- Wherever an attempt starts in a course, the token has not fired, all attempts so far failed and
were slept after, and one more is left. -/
theorem Course.starts (h : Course w n delay s es result s')
    {earlier later : List (Entry σ ε α)} (he : es = earlier ++ e :: later)
    (ha : e.outcome?.isSome) : Starts w (n + 1) earlier e := by
  induction h generalizing earlier with
  | cancelled => exact absurd he.symm (List.append_ne_nil_of_right_ne_nil _ (List.cons_ne_nil _ _))
  | succeeded hc | exhausted hc =>
    match earlier, he with
    | [], he =>
      obtain ⟨rfl, -⟩ := List.cons.inj he
      exact .first hc
    | _ :: _, he => exact absurd (List.cons.inj he).2.symm (by simp)
  | again hc _ _ _ ih =>
    -- The attempt is the one of this round, or one of a later round.
    match earlier, he with
    | [], he =>
      obtain ⟨rfl, -⟩ := List.cons.inj he
      exact .first hc
    | [_], he =>
      obtain ⟨-, rfl, -⟩ : _ ∧ _ ∧ _ := by simpa using he
      cases ha
    | [_, _], he =>
      obtain ⟨-, -, rfl, -⟩ : _ ∧ _ ∧ _ ∧ _ := by simpa using he
      cases ha
    | _ :: _ :: _ :: rest, he =>
      simp only [List.cons_append, List.cons.injEq] at he
      obtain ⟨rfl, rfl, rfl, he⟩ := he
      exact .later (ih he)

theorem World.Stable.action (hw : w.Stable) (he : e.Happens w)
    (hb : w.isCancelled e.before = true) : w.isCancelled e.after = true := by
  obtain ⟨before, action, after⟩ := e
  cases action with
  | attempt outcome =>
    have h := hw.attempt before hb
    rwa [show w.attempt before = (outcome, after) from he] at h
  | sleep delay =>
    have h := hw.sleep delay before hb
    rwa [show w.sleep delay before = after from he] at h
  | draw random =>
    have h := hw.draw before hb
    rwa [show w.draw before = (random, after) from he] at h

/-- Up to where the token has not fired, it had not fired before. -/
theorem Linked.unfired (hw : w.Stable) (hl : Linked s es s') (hh : ∀ e ∈ es, e.Happens w)
    (hs : w.isCancelled s' = false) : w.isCancelled s = false ∧
      ∀ e ∈ es, w.isCancelled e.before = false ∧ w.isCancelled e.after = false := by
  induction es generalizing s with
  | nil =>
    obtain rfl : s = s' := hl
    exact ⟨hs, fun e he => absurd he List.not_mem_nil⟩
  | cons e es ih =>
    obtain ⟨rfl, hl⟩ := hl
    obtain ⟨he, hes⟩ := List.forall_mem_cons.mp hh
    obtain ⟨hafter, hrest⟩ := ih hl hes
    have hbefore : w.isCancelled e.before = false := by
      refine Bool.eq_false_iff.mpr fun hb => ?_
      rw [hw.action he hb] at hafter
      cases hafter
    exact ⟨hbefore, List.forall_mem_cons.mpr ⟨⟨hbefore, hafter⟩, hrest⟩⟩

/-! ## The result -/

/-- How a retry that may make `n` attempts ends, told by what was done: all its attempts but the
last failed, and so did the last one unless it gave the result. -/
inductive Ended (w : World σ ε α) (n : Nat) (es : List (Entry σ ε α)) :
    Except (Failure ε) α → σ → Prop
  | succeeded (errors : List ε) {a : α} {s' : σ}
    (hc : calls es = errors.map Except.error ++ [.ok a]) (hs : (sleeps es).length = errors.length)
    (hn : errors.length < n) : Ended w n es (.ok a) s'
  | exhausted (errors : List ε) {e : ε} {s' : σ}
    (hc : calls es = errors.map Except.error ++ [.error e])
    (hs : (sleeps es).length = errors.length) (hn : errors.length + 1 = n) :
    Ended w n es (.error (.exhausted e)) s'
  | cancelled (errors : List ε) {s' : σ} (hc : calls es = errors.map Except.error)
    (hs : (sleeps es).length = errors.length) (hn : errors.length < n)
    (hf : w.isCancelled s' = true) : Ended w n es (.error .cancelled) s'

/-- A failed round before it changes nothing about how a retry ends. -/
theorem Ended.later {s₁ s₂ s₃ : σ} {x : ε} {random : Nat} (h : Ended w n es result s') :
    Ended w (n + 1) (⟨s, .attempt (.error x), s₁⟩ :: ⟨s₁, .sleep delay, s₂⟩ ::
      ⟨s₂, .draw random, s₃⟩ :: es) result s' := by
  cases h with
  | @succeeded errors _ _ hc hs hn =>
    exact .succeeded (x :: errors) (congrArg (Except.error x :: ·) hc)
      (congrArg (· + 1) hs) (Nat.succ_lt_succ hn)
  | @exhausted errors _ _ hc hs hn =>
    exact .exhausted (x :: errors) (congrArg (Except.error x :: ·) hc)
      (congrArg (· + 1) hs) (congrArg (· + 1) hn)
  | @cancelled errors _ hc hs hn hf =>
    exact .cancelled (x :: errors) (congrArg (Except.error x :: ·) hc)
      (congrArg (· + 1) hs) (Nat.succ_lt_succ hn) hf

theorem Course.ended (h : Course w n delay s es result s') :
    Ended w (n + 1) es result s' := by
  induction h with
  | cancelled hc => exact .cancelled [] rfl rfl (Nat.succ_pos _) hc
  | succeeded => exact .succeeded [] rfl rfl (Nat.succ_pos _)
  | exhausted => exact .exhausted [] rfl rfl rfl
  | again _ _ _ _ ih => exact ih.later

theorem failures_append (outcomes outcomes' : List (Except ε α)) :
    failures (outcomes ++ outcomes') = failures outcomes ++ failures outcomes' :=
  List.filterMap_append

@[simp] theorem failures_map_error (errors : List ε) :
    failures (errors.map (Except.error (α := α))) = errors := by
  rw [failures, List.filterMap_map]
  exact List.filterMap_some

theorem allFailed_map (errors : List ε) : AllFailed (errors.map (Except.error (α := α))) := by
  intro outcome h
  obtain ⟨e, -, rfl⟩ := List.mem_map.mp h
  exact ⟨e, rfl⟩

theorem allFailed_concat (errors : List ε) (e : ε) :
    AllFailed (errors.map (Except.error (α := α)) ++ [.error e]) := by
  rw [← List.map_singleton, ← List.map_append]
  exact allFailed_map _

theorem not_allFailed_concat (outcomes : List (Except ε α)) (a : α) :
    ¬ AllFailed (outcomes ++ [.ok a]) := by
  intro h
  obtain ⟨e, he⟩ := h (.ok a) (List.mem_append_right _ (List.mem_singleton_self _))
  cases he

theorem Ended.calls_le (h : Ended w n es result s') : (calls es).length ≤ n := by
  cases h with
  | succeeded _ hc _ hn | exhausted _ hc _ hn | cancelled _ hc _ hn =>
    rw [hc]
    simp only [List.length_append, List.length_map, List.length_singleton]
    omega

/-- The last attempt succeeded exactly in a retry that has its value. -/
theorem Ended.ok_iff (h : Ended w n es result s') (a : α) :
    result = .ok a ↔ (calls es).getLast? = some (.ok a) := by
  cases h with
  | succeeded _ hc => rw [hc, List.getLast?_concat]; simp
  | exhausted _ hc => rw [hc, List.getLast?_concat]; simp
  | cancelled _ hc => rw [hc]; simp

/-- All attempts were made and failed exactly in a retry that is exhausted. -/
theorem Ended.exhausted_iff (h : Ended w n es result s') (e : ε) :
    result = .error (.exhausted e) ↔ (calls es).length = n ∧ AllFailed (calls es) ∧
      (calls es).getLast? = some (.error e) := by
  cases h with
  | succeeded _ hc =>
    rw [hc]
    simp [not_allFailed_concat]
  | exhausted _ hc _ hn =>
    rw [hc, List.getLast?_concat, List.length_append, List.length_map, List.length_singleton]
    simp [hn, allFailed_concat]
  | cancelled _ hc _ hn =>
    rw [hc, List.length_map]
    simp [Nat.ne_of_lt hn]

/-- Attempts were left, all before failed and the token had fired exactly in a retry that is
cancelled. -/
theorem Ended.cancelled_iff (h : Ended w n es result s') :
    result = .error .cancelled ↔ (calls es).length < n ∧ AllFailed (calls es) ∧
      w.isCancelled s' = true := by
  cases h with
  | succeeded _ hc =>
    rw [hc]
    simp [not_allFailed_concat]
  | exhausted _ hc _ hn =>
    rw [hc, List.length_append, List.length_map, List.length_singleton]
    simp [hn]
  | cancelled _ hc _ hn hf =>
    rw [hc, List.length_map]
    simp [hn, hf, allFailed_map]

/-- Success leaves a failure of each attempt but the last. -/
theorem Ended.failures_ok {a : α} (h : Ended w n es (.ok a) s') :
    (failures (calls es)).length + 1 = (calls es).length := by
  cases h with
  | succeeded errors hc =>
    have hlast : failures [Except.ok (ε := ε) a] = [] := rfl
    rw [hc, failures_append, failures_map_error, hlast, List.append_nil, List.length_append,
      List.length_map, List.length_singleton]

/-- The last failure is the one that a retry is exhausted with. -/
theorem Ended.failures_exhausted {e : ε} (h : Ended w n es (.error (.exhausted e)) s') :
    (failures (calls es)).length = n ∧ (failures (calls es)).getLast? = some e := by
  cases h with
  | exhausted errors hc _ hn =>
    have hlast : failures [Except.error (α := α) e] = [e] := rfl
    rw [hc, failures_append, failures_map_error, hlast, List.length_append, List.length_singleton,
      List.getLast?_concat]
    exact ⟨hn, rfl⟩

theorem Ended.failures_cancelled (h : Ended w n es (.error .cancelled) s') :
    (failures (calls es)).length = (calls es).length := by
  cases h with
  | cancelled errors hc => rw [hc, failures_map_error, List.length_map]

theorem Ended.ne_noAttempts (h : Ended w n es result s') : result ≠ .error .noAttempts := by
  cases h <;> simp

/-- A retry that is cancelled slept after each of its attempts. -/
theorem Ended.length_sleeps (h : Ended w n es (.error .cancelled) s') :
    (sleeps es).length = (calls es).length := by
  cases h with
  | cancelled _ hc hs => rw [hs, hc, List.length_map]

/-- Any other retry slept after each of its attempts but the last. -/
theorem Ended.length_sleeps_succ (h : Ended w n es result s') (hr : result ≠ .error .cancelled) :
    (sleeps es).length + 1 = (calls es).length := by
  cases h with
  | succeeded _ hc hs | exhausted _ hc hs =>
    rw [hs, hc, List.length_append, List.length_map, List.length_singleton]
  | cancelled => exact absurd rfl hr

/-! ## Retries -/

/-- A retry that may make `n` attempts goes from `s` to `s'` by the actions `es`, with that
result. -/
structure Proceeds (w : World σ ε α) (n : Nat) (s : σ) (es : List (Entry σ ε α))
    (result : Except (Failure ε) α) (s' : σ) : Prop where
  /-- The actions happen one after another. -/
  linked : Linked s es s'
  happens : ∀ e ∈ es, e.Happens w
  /-- Without attempts nothing is done, whether or not the token has fired. -/
  idle : n = 0 → es = [] ∧ s' = s
  noAttempts_iff : result = .error .noAttempts ↔ n = 0
  calls_le : (calls es).length ≤ n
  starts : ∀ earlier e later, es = earlier ++ e :: later → e.outcome?.isSome → Starts w n earlier e
  /-- No attempt starts once the token has fired. -/
  unfired : w.Stable → ∀ earlier e later, es = earlier ++ e :: later → e.outcome?.isSome →
    ∀ x ∈ earlier, w.isCancelled x.before = false ∧ w.isCancelled x.after = false
  ok_iff : ∀ a, result = .ok a ↔ (calls es).getLast? = some (.ok a)
  exhausted_iff : ∀ e, result = .error (.exhausted e) ↔ (calls es).length = n ∧
    AllFailed (calls es) ∧ (calls es).getLast? = some (.error e)
  cancelled_iff : result = .error .cancelled ↔ (calls es).length < n ∧ AllFailed (calls es) ∧
    w.isCancelled s' = true
  sleeps_cancelled : result = .error .cancelled → (sleeps es).length = (calls es).length
  sleeps_ok : ∀ a, result = .ok a → (sleeps es).length + 1 = (calls es).length
  sleeps_exhausted : ∀ e, result = .error (.exhausted e) →
    (sleeps es).length + 1 = (calls es).length

theorem Linked.earlier {earlier later : List (Entry σ ε α)}
    (h : Linked s (earlier ++ e :: later) s') : Linked s earlier e.before := by
  induction earlier generalizing s with
  | nil => exact h.1.symm
  | cons x earlier ih => exact ⟨h.1, ih h.2⟩

/-- The attempts of a course make a retry. -/
theorem Course.proceeds (h : Course w n delay s es result s') :
    Proceeds w (n + 1) s es result s' where
  linked := h.linked
  happens := h.happens
  idle hn := absurd hn (Nat.succ_ne_zero n)
  noAttempts_iff := ⟨fun hr => absurd hr h.ended.ne_noAttempts,
    fun hn => absurd hn (Nat.succ_ne_zero n)⟩
  calls_le := h.ended.calls_le
  starts _ _ _ he ha := h.starts he ha
  unfired hw earlier e later he ha := by
    have hlinked := h.linked
    have hhappens := h.happens
    rw [he] at hlinked hhappens
    exact (hlinked.earlier.unfired hw (fun x hx => hhappens x (List.mem_append_left _ hx))
      (h.starts he ha).unfired).2
  ok_iff := h.ended.ok_iff
  exhausted_iff := h.ended.exhausted_iff
  cancelled_iff := h.ended.cancelled_iff
  sleeps_cancelled hr := (hr ▸ h.ended).length_sleeps
  sleeps_ok _ hr := h.ended.length_sleeps_succ (by rw [hr]; simp)
  sleeps_exhausted _ hr := h.ended.length_sleeps_succ (by rw [hr]; simp)

theorem proceeds_zero (w : World σ ε α) (s : σ) :
    Proceeds w 0 s [] (.error .noAttempts) s where
  linked := rfl
  happens _ h := absurd h List.not_mem_nil
  idle _ := ⟨rfl, rfl⟩
  noAttempts_iff := ⟨fun _ => rfl, fun _ => rfl⟩
  calls_le := Nat.le_refl 0
  starts _ _ _ he := absurd he.symm (by simp)
  unfired _ _ _ _ he := absurd he.symm (by simp)
  ok_iff := by simp [calls]
  exhausted_iff := by simp [calls]
  cancelled_iff := by simp [calls]
  sleeps_cancelled _ := rfl
  sleeps_ok := by simp
  sleeps_exhausted := by simp

/-- Every retry proceeds by what is written down of it, in every world: whatever its attempts come
to, whenever its token fires and whatever is drawn. Writing that down changes nothing, and a policy
is the retry with its settings. -/
theorem retry_proceeds (w : World σ ε α) (n : Nat) (delay : Duration) (s : σ) :
    Proceeds w n s (history w n delay s) (retry w n delay s).1 (retry w n delay s).2 ∧
      retry w.watched n delay (s, []) =
        ((retry w n delay s).1, (retry w n delay s).2, history w n delay s) ∧
      RetryPolicy.run ⟨n, delay⟩ w s = retry w n delay s := by
  refine ⟨?_, retry_watched w n delay s, rfl⟩
  cases n with
  | zero => exact proceeds_zero w s
  | succ n => exact (course_history w n delay s).proceeds

/-- A token that fires during the first sleep is seen before the second attempt, though a third one
is left. -/
theorem retry_proceeds_cancelled :
    let w : World Nat Nat Nat :=
      ⟨fun s => (.error s, s + 1), fun s => 2 ≤ s, fun _ s => s + 1, fun s => (0, s + 1)⟩
    w.Stable ∧ Proceeds w 3 0 (history w 3 .zero 0) (.error .cancelled) 3 := by
  intro w
  refine ⟨⟨fun s h => ?_, fun _ s h => ?_, fun s h => ?_⟩, (retry_proceeds w 3 .zero 0).1⟩ <;>
  · simp only [w, decide_eq_true_eq] at h ⊢
    omega

end MetricsQuery.Retry
