import MetricsQuery.Proofs.Command.Settings
import MetricsQuery.Proofs.Text.Trim
import MetricsQuery.Proofs.Time.Seconds

/-!
# The step of a range request

The step of a window is the standard one or that of a text among the words of the command line
(`given_of_ofWords`), so it is never zero. The requests of the command carry it in thousandths of a
second, of which there are none for a step shorter than half a millisecond: `step_sent`.
-/

namespace MetricsQuery

/-! ## Where a step comes from -/

/-- The step, if one has been taken, is that of a text of `P`. -/
def Given.StepFrom (P : String → Prop) (g : Given) : Prop :=
  ∀ d, g.step = some d → ∃ v, P v ∧ Given.stepOf .step v = .ok d

/-- The words give the text of a step. -/
def GivesStep (ws : List String) (v : String) : Prop := v ∈ ws ∨ "--step=" ++ v ∈ ws

variable {P : String → Prop}

namespace Given

variable {g g' : Given} {p : Parameter} {v : String}

theorem StepFrom.take (hg : g.StepFrom P) (hv : p = .step → P v) (h : g.take p v = .ok g') :
    g'.StepFrom P := by
  cases p with
  | step =>
    obtain ⟨d, hd, rfl⟩ := map_eq_ok_iff.mp h
    intro d' hd'
    cases hd'
    exact ⟨v, hv rfl, hd⟩
  | configFile | start | stop | podsFile | listen | output =>
    obtain ⟨x, -, rfl⟩ := map_eq_ok_iff.mp h
    exact hg
  | prometheusUrl | contextName | queryOffset | profile | range | once | help | version =>
    cases h
    exact hg

theorem StepFrom.add (hg : g.StepFrom P) (hv : p = .step → P v) (h : g.add p v = .ok g') :
    g'.StepFrom P := by
  unfold Given.add at h
  split at h
  · cases h
  · obtain ⟨taken, htaken, rfl⟩ := map_eq_ok_iff.mp h
    have hstep : taken.StepFrom P := hg.take hv htaken
    exact hstep

end Given

namespace Reading

/-- What has been taken, and what is pending, is the step of a text of `P`. -/
structure StepFrom (P : String → Prop) (r : Reading) : Prop where
  given : r.given.StepFrom P
  pending : ∀ v, r.pending = some (.step, some v) → P v

variable {r r' : Reading} {l : Level} {w : String}

theorem stepFrom_empty : StepFrom P {} := ⟨nofun, nofun⟩

theorem StepFrom.settle {g : Given} (hr : r.StepFrom P) (h : r.settle = .ok g) : g.StepFrom P := by
  unfold Reading.settle at h
  split at h
  · cases h
    exact hr.given
  · cases h
  · next p v hp =>
    refine hr.given.add ?_ (mapError_eq_ok_iff.mp h)
    rintro rfl
    exact hr.pending v hp

theorem name_of_find? {name : String} {p : Parameter} (h : l.find? name = some p) :
    p.name = name := by
  have hname := List.find?_some h
  exact beq_iff_eq.mp hname

theorem StepFrom.named {name : String} {attached : Option String} (hr : r.StepFrom P)
    (hv : ∀ v, attached = some v → name = "step" → P v) (h : r.named l name attached = .ok r') :
    r'.StepFrom P := by
  unfold Reading.named at h
  split at h
  · cases h
  · next p v hp =>
    split at h
    · cases h
    obtain ⟨g, hg, h⟩ := bind_eq_ok_iff.mp h
    obtain ⟨g', hadd, h⟩ := bind_eq_ok_iff.mp h
    cases h
    refine ⟨(hr.settle hg).add ?_ (mapError_eq_ok_iff.mp hadd), nofun⟩
    rintro rfl
    exact hv v rfl (name_of_find? hp).symm
  · next p hp =>
    obtain ⟨g, hg, h⟩ := bind_eq_ok_iff.mp h
    have hgiven := hr.settle hg
    split at h
    · cases h
    · cases h
    split at h
    · next hflag =>
      obtain ⟨g', hadd, h⟩ := bind_eq_ok_iff.mp h
      cases h
      refine ⟨hgiven.add ?_ (mapError_eq_ok_iff.mp hadd), nofun⟩
      rintro rfl
      cases hflag
    · cases h
      exact ⟨hgiven, nofun⟩

theorem StepFrom.lettered {letter : Char} (hr : r.StepFrom P) (h : r.lettered l letter = .ok r') :
    r'.StepFrom P := by
  unfold Reading.lettered at h
  have hnone : ∀ name v, none = some v → name = "step" → P v := nofun
  split at h
  · exact hr.named (hnone _) h
  split at h
  · exact hr.named (hnone _) h
  · cases h

theorem StepFrom.word {literal : Bool} (hr : r.StepFrom P) (h : r.word l literal w = .ok r') :
    r'.StepFrom P := by
  unfold Reading.word at h
  split at h
  · cases h
  obtain ⟨g, hg, h⟩ := bind_eq_ok_iff.mp h
  have hgiven : g.StepFrom P := hr.settle hg
  cases h
  exact ⟨hgiven, nofun⟩

/-- What is attached to a name stands behind the sign after it. -/
theorem eq_append_of_attached {cs : List Char} {v : String}
    (h : (cs.drop (cs.takeWhile (· != '=')).length).tail?.map String.ofList = some v) :
    cs = cs.takeWhile (· != '=') ++ '=' :: v.toList := by
  obtain ⟨happend, -, hstop⟩ := Text.runs_split (· != '=') cs
  generalize cs.takeWhile (· != '=') = name at *
  generalize cs.dropWhile (· != '=') = rest at *
  subst happend
  rw [List.drop_left] at h
  cases rest with
  | nil => cases h
  | cons c rest =>
    have hsign := hstop c rfl
    rw [bne_eq_false_iff_eq] at hsign
    cases h
    rw [hsign, String.toList_ofList]

/-- One word, which is the text of a step or has it behind the name of the parameter. -/
theorem StepFrom.next (hr : r.StepFrom P) (hw : P w) (hv : ∀ v, w = "--step=" ++ v → P v)
    (h : r.next l w = .ok r') : r'.StepFrom P := by
  unfold Reading.next at h
  split at h
  · next cs hcs =>
    refine hr.named (fun v hattached hname => hv v (String.toList_inj.mp ?_)) h
    rw [hcs, eq_append_of_attached hattached, ← String.toList_ofList (l := cs.takeWhile _), hname,
      String.toList_append]
    rfl
  · exact hr.lettered h
  · split at h
    · next p hp =>
      cases h
      refine ⟨hr.given, fun v hpending => ?_⟩
      cases hpending
      exact hw
    · exact hr.word h

theorem StepFrom.literal {ws : List String} (hr : r.StepFrom P)
    (h : Reading.literal l r ws = .ok r') : r'.StepFrom P := by
  induction ws generalizing r with
  | nil =>
    cases h
    exact hr
  | cons w ws ih =>
    obtain ⟨r₁, hr₁, h⟩ := bind_eq_ok_iff.mp h
    exact ih (hr.word hr₁) h

/-- The words of a level up to a command give its step, and the words behind the command are among
them. -/
theorem StepFrom.read {ws : List String} {rest : Option (String × List String)} (hr : r.StepFrom P)
    (hP : ∀ v, GivesStep ws v → P v) (h : Reading.read l r ws = .ok (r', rest)) :
    r'.StepFrom P ∧ ∀ name ws', rest = some (name, ws') → ws' ⊆ ws := by
  induction ws generalizing r with
  | nil =>
    cases h
    exact ⟨hr, nofun⟩
  | cons w ws ih =>
    unfold Reading.read at h
    split at h
    · cases h
      refine ⟨hr, fun name ws' hrest => ?_⟩
      cases hrest
      exact List.subset_cons_self w ws
    split at h
    · obtain ⟨r₁, hr₁, h⟩ := bind_eq_ok_iff.mp h
      cases h
      exact ⟨hr.literal hr₁, nofun⟩
    · obtain ⟨r₁, hr₁, h⟩ := bind_eq_ok_iff.mp h
      have hw : P w := hP w (.inl List.mem_cons_self)
      have hv : ∀ v, w = "--step=" ++ v → P v := fun v he =>
        hP v (.inr (he ▸ List.mem_cons_self))
      have hrest : ∀ v, GivesStep ws v → P v := fun v hg =>
        hP v (hg.imp (List.mem_cons_of_mem w) (List.mem_cons_of_mem w))
      obtain ⟨hr', hsub⟩ := ih (hr.next hw hv hr₁) hrest h
      exact ⟨hr', fun name ws' he v hv => List.mem_cons_of_mem w (hsub name ws' he hv)⟩

end Reading

theorem Given.stepFrom_ofWords {l : Level} {ws : List String} {g : Given}
    (hP : ∀ v, GivesStep ws v → P v) (h : Given.ofWords l ws = .ok g) : g.StepFrom P := by
  obtain ⟨⟨r, rest⟩, hr, h⟩ := bind_eq_ok_iff.mp h
  exact (Reading.stepFrom_empty.read hP hr).1.settle h

namespace Command

variable {ws queries : List String} {conn : Connection} {command : Command} {q : String}
  {w : Window}

/-- The window of a command is that of what is given at its level. -/
theorem window_ofGiven? {l : Level} {g : Given} (h : ofGiven? l g = some command)
    (ha : Asks command queries (some w)) : w = Window.ofGiven g := by
  cases l with
  | program => cases h
  | query =>
    simp only [ofGiven?] at h
    split at h <;> cases h
    cases ha
  | range =>
    obtain ⟨q, -, rfl⟩ := Option.map_eq_some_iff.mp h
    cases ha
    rfl
  | raw =>
    obtain ⟨q, -, rfl⟩ := Option.map_eq_some_iff.mp h
    split at ha
    · cases ha
      rfl
    · cases ha
  | podLabels =>
    obtain ⟨f, -, rfl⟩ := Option.map_eq_some_iff.mp h
    cases ha

/-- The step of a command is the standard one or that of a text among its words. -/
theorem step_ofWords (hread : ofWords ws = .ok (conn, command))
    (ha : Asks command queries (some w)) :
    w.step = Window.standardStep ∨
      ∃ v, GivesStep ws v ∧ Given.stepOf .step v = .ok w.step := by
  obtain ⟨⟨r, rest⟩, hr, h⟩ := bind_eq_ok_iff.mp hread
  obtain ⟨-, hsub⟩ := Reading.stepFrom_empty.read (fun v hv => hv) hr
  cases rest with
  | none =>
    obtain ⟨g, -, h⟩ := bind_eq_ok_iff.mp h
    cases h
  | some rest =>
    obtain ⟨name, ws'⟩ := rest
    have hmem := hsub name ws' rfl
    dsimp only at h
    split at h
    · cases h
    obtain ⟨g, hg, h⟩ := bind_eq_ok_iff.mp h
    split at h
    · cases h
    next c hc =>
    obtain ⟨g', -, h⟩ := bind_eq_ok_iff.mp h
    cases h
    have hgiven := Given.stepFrom_ofWords (fun v hv => hv.imp (@hmem v) (@hmem _)) hg
    rw [window_ofGiven? hc ha, Window.ofGiven]
    cases hstep : g.step with
    | none => exact .inl rfl
    | some d => exact .inr (hgiven d hstep)

/-- The last pair of a request about a range is the step. -/
theorem getLast?_step (c : Context) (now start stop : Instant) (q : String) (step : Duration) :
    (c.request now q (.range start stop step)).url.pairs.getLast? =
      some ("step", Context.stepText step) := by
  rw [Context.request, Context.pairs_requestUrl_eq, Context.parameters, List.getLast?_append]
  rfl

/-- For whatever words a command about a range is read from, and on whatever host: its step is the
standard one or that of a text among the words, which the command line takes for a step only if it
is not zero. Each request that the command sends ends with the step in thousandths of a second, and
this number is greater than zero exactly if the step is half a millisecond or longer. -/
theorem step_sent (hread : ofWords ws = .ok (conn, command)) (ha : Asks command [q] (some w))
    (h : Host) :
    (w.step = Window.standardStep ∨
      ∃ v, GivesStep ws v ∧ Given.stepOf .step v = .ok w.step) ∧
    ∀ r ∈ (run h conn command).sent, ∃ n s, r.url.pairs.getLast? = some ("step", s) ∧
      IsMilli n s ∧ (0 < n ↔ 500000 ≤ w.step.nanos) := by
  refine ⟨step_ofWords hread ha, fun r hr => ?_⟩
  rcases starts_or_fails h conn (some w) with ⟨c, kind, hs⟩ | hf
  · obtain ⟨start, stop, -, rfl⟩ := hs.range w rfl
    rw [hs.sent ha, List.map_singleton, List.mem_singleton] at hr
    obtain ⟨n, hn, hpos⟩ := w.step.exists_isMilli_stepText
    exact ⟨n, _, hr ▸ getLast?_step c _ start stop q w.step, hn, hpos⟩
  · rw [(hf.exit ha).2] at hr
    cases hr

/-- A step of a millisecond is sent as one that is greater than zero. -/
theorem step_sent_milli :
    let w : Window := { step := .ofMillis 1 }
    let conn : Connection := { address := some "http://prom.test" }
    ofWords ["range", "up", "--prometheus-url", "http://prom.test", "--step", "1ms"] =
        .ok (conn, .range "up" w false) ∧
      (run quietHost conn (.range "up" w false)).sent.length = 1 ∧
      ∀ r ∈ (run quietHost conn (.range "up" w false)).sent, ∃ n s,
        r.url.pairs.getLast? = some ("step", s) ∧ IsMilli n s ∧ 0 < n := by
  intro w conn
  have hread : ofWords ["range", "up", "--prometheus-url", "http://prom.test", "--step", "1ms"] =
      .ok (conn, .range "up" w false) := by decide +kernel
  refine ⟨hread, by decide +kernel, fun r hr => ?_⟩
  obtain ⟨n, s, hlast, hmilli, hpos⟩ := (step_sent hread (.range "up" w false) quietHost).2 r hr
  exact ⟨n, s, hlast, hmilli, hpos.mpr (by decide)⟩

/-- A step of 0.4 ms is not zero, so it is taken, but it is sent as zero seconds. -/
theorem step_sent_zero :
    let w : Window := { step := ⟨400000, by decide⟩ }
    let conn : Connection := { address := some "http://prom.test" }
    ofWords ["range", "up", "--prometheus-url", "http://prom.test", "--step", "0.4ms"] =
        .ok (conn, .range "up" w false) ∧
      Given.stepOf .step "0.4ms" = .ok w.step ∧
      ∃ r ∈ (run quietHost conn (.range "up" w false)).sent,
        r.url.pairs.getLast? = some ("step", "0.000") ∧ IsMilli 0 "0.000" := by
  intro w conn
  refine ⟨by decide +kernel, by decide +kernel, ?_⟩
  have hsent : (run quietHost conn (.range "up" w false)).sent.length = 1 := by decide +kernel
  have ha : Asks (.range "up" w false) ["up"] (some w) := .range "up" w false
  have hzero : Context.stepText w.step = "0.000" := by decide +kernel
  have hmilli : IsMilli 0 "0.000" := Binary64.isMilli_milliText 0
  rcases starts_or_fails quietHost conn (some w) with ⟨c, kind, hs⟩ | hf
  · obtain ⟨start, stop, -, rfl⟩ := hs.range w rfl
    refine ⟨c.request quietHost.surroundings.now "up" (.range start stop w.step), ?_, ?_, hmilli⟩
    · rw [hs.sent ha]
      exact List.mem_cons_self
    · rw [getLast?_step, hzero]
  · rw [(hf.exit ha).2] at hsent
    cases hsent

end Command

end MetricsQuery
