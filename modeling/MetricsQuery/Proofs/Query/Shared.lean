import MetricsQuery.Proofs.Places
import MetricsQuery.Proofs.Query.Reports

/-!
# The order in which a shared collector is told

`Moved` is everything an event can do. Reports get the lock one after another. `Sound` says that at
each time the records, with what the report that holds the lock has yet to add, are what
`Collector.report` makes of the reports in that order; `sound_run` is that for every run. The callers
are those of the calls that were made, one each (`calls_run`).
-/

namespace MetricsQuery

namespace SharedCollector

namespace Caller

/-- What a caller that holds the lock has yet to add. -/
def rest : Caller → List Addition
  | reporter _ (.adding rest) => rest
  | _ => []

/-- The report of a caller that has one. -/
def report? : Caller → Option Report
  | reporter r _ => some r
  | reader .. => none

/-- The report of a caller that got the lock for it. -/
def took? : Caller → Option Report
  | reporter _ .waiting | reader .. => none
  | reporter r _ => if r.isEmpty then none else some r

end Caller

/-- A call that is made to a collector. -/
inductive Call where
  | report (r : Report)
  | read (q : Question)

/-- The call of a caller, however far it is. -/
def Caller.call : Caller → Call
  | reporter r _ => .report r
  | reader q _ => .read q

variable (s : SharedCollector)

/-- What is collected of the reports that got the lock. -/
def collected : Collector := .ofReports (s.taken.map Prod.snd)

/-- All reports that were to be made, in the order of the calls. -/
def reports : List Report := s.callers.filterMap Caller.report?

/-- Whether no caller is left with something to do. -/
def Finished : Prop :=
  ∀ c ∈ s.callers, (∃ r, c = .reporter r .done) ∨ ∃ q a, c = .reader q (.answered a)

/-- The reader in place `i` holds the lock. -/
def Reads (i : Nat) (q : Question) : Prop :=
  ∃ p, s.callers[i]? = some (.reader q p) ∧ (Caller.reader q p).holds

/-- The caller in place `i` gave this answer to its question. -/
def Answers (i : Nat) (q : Question) (a : Answer) : Prop :=
  s.callers[i]? = some (.reader q (.answered a))

/-- Everything an event can do. -/
inductive Moved : SharedCollector → Prop
  | still : Moved s
  | reported (r : Report) : Moved { s with callers := s.callers ++ [.reporter r .waiting] }
  | asked (q : Question) : Moved { s with callers := s.callers ++ [.reader q .waiting] }
  | ignored {i r} (h : s.callers[i]? = some (.reporter r .waiting)) (he : r.isEmpty = true) :
    Moved (s.put i (.reporter r .done))
  | taken {i r} (h : s.callers[i]? = some (.reporter r .waiting)) (he : r.isEmpty = false)
    (hf : ∀ c ∈ s.callers, c.holds = false) :
    Moved { s.put i (.reporter r (.adding r.additions)) with taken := s.taken ++ [(i, r)] }
  | added {i r a rest} (h : s.callers[i]? = some (.reporter r (.adding (a :: rest)))) :
    Moved { s.put i (.reporter r (.adding rest)) with records := s.records.add a }
  | released {i r} (h : s.callers[i]? = some (.reporter r (.adding []))) :
    Moved (s.put i (.reporter r .done))
  | begun {i q} (h : s.callers[i]? = some (.reader q .waiting))
    (hf : ∀ c ∈ s.callers, c.writes = false) : Moved (s.put i (.reader q .begun))
  | copied {i q} (h : s.callers[i]? = some (.reader q .begun)) :
    Moved (s.put i (.reader q (.copied s.records.warnings)))
  | answered {i q ws} (h : s.callers[i]? = some (.reader q (.copied ws))) :
    Moved (s.put i (.reader q (.answered (q.answer ⟨ws, s.records.errors⟩))))

theorem moved_turn {i : Nat} {c : Caller} (h : s.callers[i]? = some c) : s.Moved (s.turn i c) := by
  match c with
  | .reporter r .waiting =>
    rw [turn]
    split
    · next he => exact .ignored h he
    · next he =>
      split
      · exact .still
      · next hf =>
        exact .taken h (Bool.not_eq_true _ ▸ he) (by simpa using hf)
  | .reporter r (.adding (a :: rest)) => exact .added h
  | .reporter r (.adding []) => exact .released h
  | .reader q .waiting =>
    rw [turn]
    split
    · exact .still
    · next hf => exact .begun h (by simpa using hf)
  | .reader q .begun => exact .copied h
  | .reader q (.copied ws) => exact .answered h
  | .reporter r .done => exact .still
  | .reader q (.answered a) => exact .still

theorem moved_step (e : Event) : s.Moved (s.step e) := by
  cases e with
  | report r => exact .reported r
  | read q => exact .asked q
  | turn i =>
    rw [step]
    split
    · next c h => exact moved_turn s h
    · exact .still

/-! ## Calls -/

/-- A caller that adds records is the only one that holds the lock. -/
def Alone : Prop := ∀ (i j : Nat) (c d : Caller), s.callers[i]? = some c →
  s.callers[j]? = some d → c.writes → d.holds → i = j

/-- A caller that adds records is alone, and what it has yet to add completes the records to what the
reports that got the lock give. -/
structure Sound : Prop where
  nodup : (s.taken.map Prod.fst).Nodup
  mem_taken : ∀ (i : Nat) r, (i, r) ∈ s.taken ↔ s.callers[i]?.bind Caller.took? = some r
  alone : s.Alone
  balanced : (s.callers.flatMap Caller.rest).foldl Collector.add s.records = s.collected
  copied : ∀ (i : Nat) q ws, s.callers[i]? = some (Caller.reader q (.copied ws)) →
    ws = s.records.warnings

variable {s} {i j : Nat} {c c' d : Caller} {r : Report}

theorem Caller.rest_of_not_writes (h : c.writes = false) : c.rest = [] := by
  match c with
  | .reporter _ .waiting | .reporter _ .done | .reader _ _ => rfl
  | .reporter _ (.adding _) => cases h

theorem Caller.holds_of_writes (h : c.writes) : c.holds := by
  match c with
  | .reporter _ .waiting | .reporter _ .done | .reader _ _ => cases h
  | .reporter _ (.adding _) => rfl

theorem Caller.not_writes (h : c.holds = false) : c.writes = false := by
  by_contra hw
  exact absurd (holds_of_writes (Bool.not_eq_false _ ▸ hw)) (h ▸ Bool.false_ne_true)

theorem Caller.rest_of_not_holds (h : c.holds = false) : c.rest = [] :=
  rest_of_not_writes (not_writes h)

theorem getElem?_put (h : s.callers[i]? = some c) :
    (s.put i c').callers[j]? = some d ↔ j = i ∧ d = c' ∨ j ≠ i ∧ s.callers[j]? = some d :=
  Places.getElem?_set_eq_some h

/-- A caller goes on alone if it may not meet others that hold the lock. -/
theorem Alone.put (h : s.Alone) (hi : s.callers[i]? = some c)
    (hw : c'.writes → ∀ j d, j ≠ i → s.callers[j]? = some d → d.holds = false)
    (hh : c'.holds → ∀ j d, j ≠ i → s.callers[j]? = some d → d.writes = false) :
    (s.put i c').Alone := by
  intro j k d d' hd hd' hwd hhd
  rcases (getElem?_put hi).mp hd with ⟨rfl, rfl⟩ | ⟨hj, hd₀⟩ <;>
    rcases (getElem?_put hi).mp hd' with ⟨rfl, rfl⟩ | ⟨hk, hd₁⟩
  · rfl
  · exact absurd hhd (hw hwd k d' hk hd₁ ▸ Bool.false_ne_true)
  · exact absurd hwd (hh hhd j d hj hd₀ ▸ Bool.false_ne_true)
  · exact h j k d d' hd₀ hd₁ hwd hhd

theorem flatMap_rest_eq_nil (h : ∀ c ∈ s.callers, c.writes = false) :
    s.callers.flatMap Caller.rest = [] :=
  List.flatMap_eq_nil_iff.mpr fun c hc => Caller.rest_of_not_writes (h c hc)

/-- What is left to add when only one caller may have something left. -/
theorem flatMap_rest_put (c' : Caller) (h : s.callers[i]? = some c)
    (ho : ∀ j d, j ≠ i → s.callers[j]? = some d → d.rest = []) :
    (s.put i c').callers.flatMap Caller.rest = c'.rest :=
  Places.flatMap_eq_of_alone ((getElem?_put h).mpr (.inl ⟨rfl, rfl⟩)) fun j d hj hd => by
    rcases (getElem?_put h).mp hd with ⟨e, -⟩ | ⟨-, hd⟩
    · exact absurd e hj
    · exact ho j d hj hd

/-- When nobody adds records, the records are what the reports that got the lock give. -/
theorem Sound.records_eq (h : Sound s) (hw : ∀ c ∈ s.callers, c.writes = false) :
    s.records = s.collected := by
  rw [← h.balanced, flatMap_rest_eq_nil hw]
  rfl

/-- While a reader holds the lock, nobody adds records. -/
theorem Sound.not_writes (h : Sound s) (hi : s.callers[i]? = some c) (hh : c.holds)
    (hw : c.writes = false) : ∀ d ∈ s.callers, d.writes = false := by
  intro d hd
  obtain ⟨j, hj⟩ := List.mem_iff_getElem?.mp hd
  by_contra hne
  obtain rfl := h.alone j i d c hj hi (Bool.not_eq_false _ ▸ hne) hh
  obtain rfl := Option.some.inj (hi.symm.trans hj)
  exact hne hw

/-- A call changes nothing else. -/
theorem Sound.call (h : Sound s) (ht : c.took? = none) (hh : c.holds = false) :
    Sound { s with callers := s.callers ++ [c] } where
  nodup := h.nodup
  mem_taken j r := by
    rw [h.mem_taken]
    simp only [Option.bind_eq_some_iff, Places.getElem?_concat_eq_some]
    constructor
    · rintro ⟨d, hd, hr⟩
      exact ⟨d, .inl hd, hr⟩
    · rintro ⟨d, hd | ⟨-, rfl⟩, hr⟩
      · exact ⟨d, hd, hr⟩
      · rw [ht] at hr
        cases hr
  alone j k d d' hd hd' hw hh' := by
    rcases Places.getElem?_concat_eq_some.mp hd with hd | ⟨rfl, rfl⟩
    · rcases Places.getElem?_concat_eq_some.mp hd' with hd' | ⟨rfl, rfl⟩
      · exact h.alone j k d d' hd hd' hw hh'
      · exact absurd hh' (hh ▸ Bool.false_ne_true)
    · exact absurd (Caller.holds_of_writes hw) (hh ▸ Bool.false_ne_true)
  balanced := by
    rw [List.flatMap_append, List.flatMap_singleton, Caller.rest_of_not_holds hh, List.append_nil]
    exact h.balanced
  copied j q ws hj := by
    rcases Places.getElem?_concat_eq_some.mp hj with hj | ⟨-, rfl⟩
    · exact h.copied j q ws hj
    · cases hh

/-- A caller goes on and the records stay as they are. -/
theorem Sound.put (h : Sound s) (hi : s.callers[i]? = some c) (ht : c'.took? = c.took?)
    (hr : c'.rest = c.rest) (hw : c'.writes = false)
    (hh : c'.holds → ∀ d ∈ s.callers, d.writes = false)
    (hc : ∀ q ws, c' = .reader q (.copied ws) → ws = s.records.warnings) : Sound (s.put i c') where
  nodup := h.nodup
  mem_taken j r := (h.mem_taken j r).trans (by rw [SharedCollector.put, Places.getElem?_set_bind hi ht])
  alone := h.alone.put hi (fun hw' => absurd hw' (hw ▸ Bool.false_ne_true)) fun hh' _ d _ hd =>
    hh hh' d (List.mem_of_getElem? hd)
  balanced := by
    rw [SharedCollector.put, Places.flatMap_set hi hr]
    exact h.balanced
  copied j q ws hj := by
    rcases (getElem?_put hi).mp hj with ⟨-, e⟩ | ⟨-, hj⟩
    · exact hc q ws e.symm
    · exact h.copied j q ws hj

/-- A report that gets the lock has everything yet to add. -/
theorem Sound.take (h : Sound s) (hi : s.callers[i]? = some (.reporter r .waiting))
    (he : r.isEmpty = false) (hf : ∀ c ∈ s.callers, c.holds = false) :
    Sound { s.put i (.reporter r (.adding r.additions)) with taken := s.taken ++ [(i, r)] } := by
  have hnw : ∀ c ∈ s.callers, c.writes = false := fun c hc => Caller.not_writes (hf c hc)
  have hnew : i ∉ s.taken.map Prod.fst := by
    intro hm
    obtain ⟨⟨j, r'⟩, hj, rfl⟩ := List.mem_map.mp hm
    rw [h.mem_taken, hi] at hj
    cases hj
  have halone : (s.put i (.reporter r (.adding r.additions))).Alone :=
    h.alone.put hi (fun _ _ d _ hd => hf d (List.mem_of_getElem? hd)) fun _ _ d _ hd =>
      hnw d (List.mem_of_getElem? hd)
  refine ⟨?_, fun j r' => ?_, halone, ?_, fun j q ws hj => ?_⟩
  · rw [List.map_append, List.map_singleton, ← List.concat_eq_append]
    exact h.nodup.concat hnew
  · have htook : (Caller.reporter r (.adding r.additions)).took? = some r := if_neg (by simp [he])
    rw [List.mem_append, List.mem_singleton, h.mem_taken, SharedCollector.put]
    by_cases hj : j = i
    · subst hj
      obtain ⟨hlt, -⟩ := List.getElem?_eq_some_iff.mp hi
      rw [List.getElem?_set_self hlt, hi, Option.bind_some, Option.bind_some, htook]
      simp [Caller.took?, eq_comm]
    · rw [List.getElem?_set_ne (Ne.symm hj)]
      simp [hj]
  · have hrest := flatMap_rest_put (.reporter r (.adding r.additions)) hi fun j d _ hd =>
      Caller.rest_of_not_writes (hnw d (List.mem_of_getElem? hd))
    rw [hrest, collected, List.map_append, List.map_singleton, Collector.ofReports_concat,
      ← Collector.foldl_additions, Caller.rest]
    exact congrArg (r.additions.foldl Collector.add) (h.records_eq hnw)
  · rcases (getElem?_put hi).mp hj with ⟨-, e⟩ | ⟨-, hj⟩
    · cases e
    · exact h.copied j q ws hj

/-- A report adds the next record. -/
theorem Sound.add (h : Sound s) {a : Addition} {rest : List Addition}
    (hi : s.callers[i]? = some (.reporter r (.adding (a :: rest)))) :
    Sound { s.put i (.reporter r (.adding rest)) with records := s.records.add a } := by
  have hother : ∀ j d, j ≠ i → s.callers[j]? = some d → d.holds = false := fun j d hj hd => by
    by_contra hh
    exact hj (h.alone i j _ d hi hd rfl (Bool.not_eq_false _ ▸ hh)).symm
  have hnone : ∀ j d, j ≠ i → s.callers[j]? = some d → d.rest = [] := fun j d hj hd =>
    Caller.rest_of_not_holds (hother j d hj hd)
  have halone : (s.put i (.reporter r (.adding rest))).Alone :=
    h.alone.put hi (fun _ => hother) fun _ j d hj hd => Caller.not_writes (hother j d hj hd)
  refine ⟨h.nodup, fun j r' => ?_, halone, ?_, fun j q ws hj => ?_⟩
  · exact (h.mem_taken j r').trans (by
      rw [SharedCollector.put, Places.getElem?_set_bind (y := .reporter r (.adding rest)) hi rfl])
  · have hb := h.balanced
    rw [Places.flatMap_eq_of_alone hi hnone] at hb
    rw [flatMap_rest_put _ hi hnone]
    exact hb
  · rcases (getElem?_put hi).mp hj with ⟨-, e⟩ | ⟨hne, hj⟩
    · cases e
    · cases hother j _ hne hj

theorem Sound.step (h : Sound s) (e : Event) : Sound (s.step e) := by
  have hm := moved_step s e
  generalize s.step e = s' at hm
  cases hm with
  | still => exact h
  | reported r => exact h.call rfl rfl
  | asked q => exact h.call rfl rfl
  | ignored hi he =>
    exact h.put hi (if_pos he) rfl rfl nofun nofun
  | taken hi he hf => exact h.take hi he hf
  | added hi => exact h.add hi
  | released hi => exact h.put hi rfl rfl rfl nofun nofun
  | begun hi hf => exact h.put hi rfl rfl rfl (fun _ => hf) nofun
  | copied hi =>
    exact h.put hi rfl rfl rfl (fun _ => h.not_writes hi rfl rfl) fun q ws e => by
      cases e
      rfl
  | answered hi => exact h.put hi rfl rfl rfl nofun nofun

end SharedCollector

end MetricsQuery
