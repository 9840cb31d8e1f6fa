import MetricsQuery.Query.Decoder
import MetricsQuery.Proofs.Fallible

/-!
# What a body says

A body answers a query with series (`Answers`) if it is an object that reports no error, its data
has a result, and the result has the form that its type asks for: one sample, one text, or entries
that are all series. Decoding gives exactly the series that the body answers with and fails where
there are none: `decode_eq_ok_iff`, `decode_answers`.
-/

namespace MetricsQuery.Decoder

open Json (Value)

/-! ## Sample texts -/

/-- The texts with a meaning of their own mean what they mean as literals. -/
theorem sampleValue?_eq (raw : String) : sampleValue? raw = Binary64.ofText? raw := by
  unfold sampleValue?
  split
  · next h => rw [h]; rfl
  · split
    · next h => rcases h with rfl | rfl <;> rfl
    · split
      · next h => rw [h]; rfl
      · rfl

/-! ## The form of an answer -/

/-- A sample is a pair of a number and a text that is a number literal. -/
inductive IsSample : Value → Sample → Prop
  | pair {n : Json.Number} {raw : String} {x : Binary64} (h : Binary64.ofText? raw = some x) :
    IsSample (.array [.number n, .string raw]) ⟨n.toBinary64, x⟩

/-- The labels of an entry are the string members of its metric, in their order. -/
inductive IsLabels (entry : List (String × Value)) : List (String × String) → Prop
  | metric {ms : List (String × Value)} {ls : List (String × String)}
    (h : entry.lookup "metric" = some (.object ms))
    (hl : ls.map (fun l => (l.1, Value.string l.2)) = ms.filter (·.2.asString?.isSome)) :
    IsLabels entry ls
  | noMetric (h : ∀ ms, entry.lookup "metric" ≠ some (.object ms)) : IsLabels entry []

/-- The samples of an entry: its one value, whatever else it has, or all its values. -/
inductive IsSamples (entry : List (String × Value)) : List Sample → Prop
  | value {v : Value} {x : Sample} (h : entry.lookup "value" = some v) (hx : IsSample v x) :
    IsSamples entry [x]
  | values {vs : List Value} {xs : List Sample} (hn : entry.lookup "value" = none)
    (h : entry.lookup "values" = some (.array vs)) (hx : List.Forall₂ IsSample vs xs) :
    IsSamples entry xs

inductive IsSeries : Value → Series → Prop
  | entry {ms : List (String × Value)} {ls : List (String × String)} {xs : List Sample}
    (hl : IsLabels ms ls) (hx : IsSamples ms xs) : IsSeries (.object ms) ⟨ls, xs, none⟩

/-- The series that a result of a type stands for. -/
inductive IsResult (resultType : Option Value) : Value → List Series → Prop
  /-- A scalar is one sample without labels. -/
  | scalar {v : Value} {x : Sample} (ht : resultType = some (.string "scalar"))
    (hx : IsSample v x) : IsResult resultType v [⟨[], [x], none⟩]
  /-- A string is any text; its value is no number unless the text is one. -/
  | string {n : Json.Number} {raw : String} (ht : resultType = some (.string "string")) :
    IsResult resultType (.array [.number n, .string raw])
      [⟨[], [⟨n.toBinary64, (Binary64.ofText? raw).getD .nan⟩], some raw⟩]
  /-- Anything else is a list of series. -/
  | list {vs : List Value} {ss : List Series} (hs : resultType ≠ some (.string "scalar"))
    (ht : resultType ≠ some (.string "string")) (hx : List.Forall₂ IsSeries vs ss) :
    IsResult resultType (.array vs) ss

/-- The members of a body that reports no error, its data, and the result in it. -/
structure HasResult (ms data : List (String × Value)) (result : Value) : Prop where
  noError : ms.lookup "status" ≠ some (.string "error")
  hasData : ms.lookup "data" = some (.object data)
  hasResult : data.lookup "result" = some result

/-- The series that a body answers with. -/
inductive Answers : Value → List Series → Prop
  | body {ms data : List (String × Value)} {result : Value} {ss : List Series}
    (hr : HasResult ms data result) (hx : IsResult (data.lookup "resultType") result ss) :
    Answers (.object ms) ss

/-! ## Decoding -/

theorem samplePair_eq_ok_iff (v : Value) (t : Binary64) (raw : String) :
    samplePair v = .ok (t, raw) ↔
      ∃ n : Json.Number, v = .array [.number n, .string raw] ∧ n.toBinary64 = t := by
  constructor
  · intro h
    unfold samplePair at h
    split at h
    · next a b =>
      split at h
      · cases h
      · cases h
      · next ha hb =>
        cases a <;> cases ha
        cases b <;> cases hb
        cases h
        exact ⟨_, rfl, rfl⟩
    · cases h
  · rintro ⟨n, rfl, rfl⟩
    rfl

theorem sample_eq_ok_iff (v : Value) (x : Sample) : sample v = .ok x ↔ IsSample v x := by
  simp only [sample, bind_eq_ok_iff, Prod.exists, samplePair_eq_ok_iff, sampleValue?_eq]
  constructor
  · rintro ⟨t, raw, ⟨n, rfl, rfl⟩, h⟩
    split at h
    · next y hy =>
      cases h
      exact .pair hy
    · cases h
  · rintro @⟨n, raw, x, h⟩
    exact ⟨n.toBinary64, raw, ⟨n, rfl, rfl⟩, by rw [h]⟩

/-- The string members of a list of members, as members. -/
theorem map_strings (ms : List (String × Value)) :
    (ms.filterMap fun (k, v) => v.asString?.map fun s => (k, s)).map
      (fun l => (l.1, Value.string l.2)) = ms.filter (·.2.asString?.isSome) := by
  induction ms with
  | nil => rfl
  | cons m ms ih =>
    obtain ⟨k, v⟩ := m
    cases v with
    | string s => exact congrArg ((k, Value.string s) :: ·) ih
    | _ => exact ih

theorem labels_iff (entry : List (String × Value)) (ls : List (String × String)) :
    labels (entry.lookup "metric") = ls ↔ IsLabels entry ls := by
  constructor
  · rintro rfl
    unfold labels
    split
    · next ms h => exact .metric h (map_strings ms)
    · next h => exact .noMetric fun ms hm => h ms hm
  · intro h
    cases h with
    | @metric ms _ h hl =>
      have hinj : ∀ l l' : String × String,
          (l.1, Value.string l.2) = (l'.1, .string l'.2) → l = l' := by
        intro l l' e
        simp only [Prod.mk.injEq, Value.string.injEq] at e
        exact Prod.ext e.1 e.2
      rw [← map_strings, List.map_inj_right hinj] at hl
      rw [h, hl]
      rfl
    | noMetric h =>
      unfold labels
      split
      · next ms hm => exact absurd hm (h ms)
      · rfl

theorem samples_eq_ok_iff (entry : List (String × Value)) (xs : List Sample) :
    samples (.object entry) = .ok xs ↔ IsSamples entry xs := by
  simp only [samples, Value.get?]
  constructor
  · intro h
    split at h
    · next v hv =>
      obtain ⟨x, hx, rfl⟩ := map_eq_ok_iff.mp h
      exact .value hv ((sample_eq_ok_iff v x).mp hx)
    · next vs hn hvs =>
      rw [mapM_eq_ok_iff] at h
      exact .values hn hvs (h.imp fun v x => (sample_eq_ok_iff v x).mp)
    · cases h
    · cases h
  · intro h
    cases h with
    | @value v x h hx =>
      rw [h]
      exact map_eq_ok_iff.mpr ⟨x, (sample_eq_ok_iff v x).mpr hx, rfl⟩
    | values hn h hx =>
      rw [hn, h]
      exact mapM_eq_ok_iff.mpr (hx.imp fun v x => (sample_eq_ok_iff v x).mpr)

theorem series_eq_ok_iff (v : Value) (s : Series) : series v = .ok s ↔ IsSeries v s := by
  constructor
  · intro h
    unfold series at h
    split at h
    · next ms =>
      obtain ⟨xs, hx, rfl⟩ := map_eq_ok_iff.mp h
      exact .entry ((labels_iff ms _).mp rfl) ((samples_eq_ok_iff ms xs).mp hx)
    · cases h
  · intro h
    cases h with
    | @entry ms ls xs hl hx =>
      refine map_eq_ok_iff.mpr ⟨xs, (samples_eq_ok_iff ms xs).mpr hx, ?_⟩
      rw [← (labels_iff ms ls).mpr hl]
      rfl

theorem stringSeries_eq_ok_iff (v : Value) (s : Series) :
    stringSeries v = .ok s ↔ ∃ (n : Json.Number) (raw : String),
      v = .array [.number n, .string raw] ∧
        s = ⟨[], [⟨n.toBinary64, (Binary64.ofText? raw).getD .nan⟩], some raw⟩ := by
  rw [stringSeries, map_eq_ok_iff]
  constructor
  · rintro ⟨⟨t, raw⟩, hp, rfl⟩
    obtain ⟨n, rfl, rfl⟩ := (samplePair_eq_ok_iff v t raw).mp hp
    exact ⟨n, raw, rfl, by simp only [sampleValue?_eq]⟩
  · rintro ⟨n, raw, rfl, rfl⟩
    exact ⟨(n.toBinary64, raw), rfl, by simp only [sampleValue?_eq]⟩

/-- A text is that of a member that is one. -/
theorem bind_asString?_eq_some_iff (member : Option Value) (s : String) :
    member.bind Value.asString? = some s ↔ member = some (.string s) := by
  cases member with
  | none => simp
  | some v => cases v <;> simp [Value.asString?]

/-- A result of a type without a form of its own is a list. -/
theorem results_list {resultType : Option String} (hs : resultType ≠ some "scalar")
    (ht : resultType ≠ some "string") (vs : List Value) :
    results resultType (.array vs) = vs.mapM series := by
  unfold results
  split
  · exact absurd rfl hs
  · exact absurd rfl ht
  · next h => cases h; rfl
  · next h => exact absurd rfl (h vs)

theorem results_eq_ok_iff (resultType : Option Value) (v : Value) (ss : List Series) :
    results (resultType.bind Value.asString?) v = .ok ss ↔ IsResult resultType v ss := by
  have htext := bind_asString?_eq_some_iff resultType
  constructor
  · intro h
    unfold results at h
    split at h
    · next ht =>
      obtain ⟨x, hx, rfl⟩ := map_eq_ok_iff.mp h
      exact .scalar ((htext _).mp ht) ((sample_eq_ok_iff _ x).mp hx)
    · next ht =>
      obtain ⟨s, hs, rfl⟩ := map_eq_ok_iff.mp h
      obtain ⟨n, raw, rfl, rfl⟩ := (stringSeries_eq_ok_iff _ s).mp hs
      exact .string ((htext _).mp ht)
    · next hs ht =>
      refine .list (fun e => hs ((htext _).mpr e)) (fun e => ht ((htext _).mpr e)) ?_
      exact (mapM_eq_ok_iff.mp h).imp fun v s => (series_eq_ok_iff v s).mp
    · cases h
  · intro h
    cases h with
    | @scalar _ x ht hx =>
      rw [(htext _).mpr ht]
      exact map_eq_ok_iff.mpr ⟨x, (sample_eq_ok_iff v x).mpr hx, rfl⟩
    | @string n raw ht =>
      rw [(htext _).mpr ht, results, (stringSeries_eq_ok_iff _ _).mpr ⟨n, raw, rfl, rfl⟩]
      rfl
    | list hs ht hx =>
      rw [results_list (fun e => hs ((htext _).mp e)) (fun e => ht ((htext _).mp e)),
        mapM_eq_ok_iff]
      exact hx.imp fun v s => (series_eq_ok_iff v s).mpr

theorem ofBody_eq_ok_iff (body : Value) (ss : List Series) :
    ofBody body = .ok ss ↔ Answers body ss := by
  constructor
  · intro h
    unfold ofBody at h
    split at h
    · next ms =>
      split at h
      · cases h
      · next hs =>
        split at h
        · next data hd =>
          split at h
          · next result hres =>
            refine .body ⟨fun e => hs ?_, hd, hres⟩ ((results_eq_ok_iff _ result ss).mp h)
            exact (bind_asString?_eq_some_iff _ _).mpr e
          · cases h
        · cases h
    · cases h
  · rintro ⟨⟨hs, hd, hres⟩, hx⟩
    have hs' : memberText? (.object _) "status" ≠ some "error" := fun e =>
      hs ((bind_asString?_eq_some_iff _ _).mp e)
    simp only [ofBody, Value.get?, if_neg hs', hd, hres]
    exact (results_eq_ok_iff _ _ ss).mpr hx

theorem decode_eq_ok_iff (query : String) (body : Value) (ss : List Series) :
    decode query body = .ok ss ↔ Answers body ss := by
  rw [← ofBody_eq_ok_iff, decode, mapError_eq_ok_iff]

/-! ## Acceptance -/

/-- Whether a body answers a query, whatever with. -/
structure Acceptable (ms data : List (String × Value)) (result : Value) : Prop
    extends HasResult ms data result where
  scalar : data.lookup "resultType" = some (.string "scalar") → ∃ x, IsSample result x
  string : data.lookup "resultType" = some (.string "string") →
    ∃ (n : Json.Number) (raw : String), result = .array [.number n, .string raw]
  list : data.lookup "resultType" ≠ some (.string "scalar") →
    data.lookup "resultType" ≠ some (.string "string") →
    ∃ vs, result = .array vs ∧ ∀ v ∈ vs, ∃ s, IsSeries v s

/-- Items that each stand for something stand for a list. -/
theorem exists_forall₂ {α β : Type} {R : α → β → Prop} {xs : List α} (h : ∀ x ∈ xs, ∃ y, R x y) :
    ∃ ys, List.Forall₂ R xs ys := by
  induction xs with
  | nil => exact ⟨[], .nil⟩
  | cons x xs ih =>
    obtain ⟨⟨y, hy⟩, hxs⟩ := List.forall_mem_cons.mp h
    obtain ⟨ys, hys⟩ := ih hxs
    exact ⟨y :: ys, .cons hy hys⟩

theorem exists_of_forall₂ {α β : Type} {R : α → β → Prop} {xs : List α} {ys : List β}
    (h : List.Forall₂ R xs ys) : ∀ x ∈ xs, ∃ y, R x y := by
  induction h with
  | nil => exact fun x hx => absurd hx List.not_mem_nil
  | cons hxy _ ih => exact List.forall_mem_cons.mpr ⟨⟨_, hxy⟩, ih⟩

theorem answers_iff_acceptable (body : Value) :
    (∃ ss, Answers body ss) ↔
      ∃ ms data result, body = .object ms ∧ Acceptable ms data result := by
  constructor
  · rintro ⟨ss, @⟨ms, data, result, _, hr, hx⟩⟩
    refine ⟨ms, data, result, rfl, ?_⟩
    cases hx with
    | @scalar _ x ht hx =>
      exact ⟨hr, fun _ => ⟨x, hx⟩, fun h => absurd (ht.symm.trans h) (by simp),
        fun h => absurd ht h⟩
    | @string n raw ht =>
      exact ⟨hr, fun h => absurd (ht.symm.trans h) (by simp), fun _ => ⟨n, raw, rfl⟩,
        fun _ h => absurd ht h⟩
    | @list vs _ hs ht hx =>
      exact ⟨hr, fun h => absurd h hs, fun h => absurd h ht,
        fun _ _ => ⟨vs, rfl, exists_of_forall₂ hx⟩⟩
  · rintro ⟨ms, data, result, rfl, h⟩
    by_cases hs : data.lookup "resultType" = some (.string "scalar")
    · obtain ⟨x, hx⟩ := h.scalar hs
      exact ⟨_, .body h.toHasResult (.scalar hs hx)⟩
    by_cases ht : data.lookup "resultType" = some (.string "string")
    · obtain ⟨n, raw, rfl⟩ := h.string ht
      exact ⟨_, .body h.toHasResult (.string ht)⟩
    · obtain ⟨vs, rfl, hvs⟩ := h.list hs ht
      obtain ⟨ss, hss⟩ := exists_forall₂ hvs
      exact ⟨ss, .body h.toHasResult (.list hs ht hss)⟩

/-- A body is decoded exactly if it is acceptable, and to the series that it answers with, which are
the same for every query. If it is not, the fault is one of its result, with the query. -/
theorem decode_answers (query : String) (body : Value) :
    ((∃ ss, decode query body = .ok ss) ↔
        ∃ ms data result, body = .object ms ∧ Acceptable ms data result) ∧
      (∀ ss, decode query body = .ok ss ↔ Answers body ss) ∧
      ∀ f, decode query body = .error f → ∃ cause, f = .result query cause := by
  refine ⟨?_, decode_eq_ok_iff query body, fun f h => ?_⟩
  · simp only [decode_eq_ok_iff, answers_iff_acceptable]
  · rw [decode] at h
    cases hb : ofBody body with
    | ok ss => rw [hb] at h; cases h
    | error cause =>
      rw [hb] at h
      exact ⟨cause, (Except.error.inj h).symm⟩

end MetricsQuery.Decoder
