import MetricsQuery.Proofs.Entries
import MetricsQuery.Proofs.Query.Decoder

/-!
# The first fault of a body

A body whose result is a list (`HasList`) is decoded from the front. Wherever the list is cut, between
two entries or between two samples of one, a fault of the part before the cut is the fault of the
body, and one of the part after it counts only where there is none before. So the fault is that of
the first entry that is no series (`FirstFault`), and within it that of the first value that is no
sample (`EntryFault`): `faults_in_order`.
-/

namespace MetricsQuery.Decoder

open Json (Value)

/-! ## Faults -/

/-- Why a value is no sample. -/
inductive SampleFault : Value → ResultCause → Prop
  | notPair {v : Value} (h : ∀ t x, v ≠ .array [t, x]) : SampleFault v .sampleNotPair
  | timestamp {t x : Value} (h : ∀ n, t ≠ .number n) :
    SampleFault (.array [t, x]) .timestampNotNumber
  | text {n : Json.Number} {x : Value} (h : ∀ s, x ≠ .string s) :
    SampleFault (.array [.number n, x]) .valueNotString
  | value {n : Json.Number} {raw : String} (h : Binary64.ofText? raw = none) :
    SampleFault (.array [.number n, .string raw]) (.badValue raw)

/-- Why a value is no series. Of several values that are no samples it is the first one. -/
inductive EntryFault : Value → ResultCause → Prop
  | notObject {v : Value} (h : ∀ es, v ≠ .object es) : EntryFault v .entryNotObject
  | value {es : List (String × Value)} {v : Value} {cause : ResultCause}
    (h : es.lookup "value" = some v) (hv : SampleFault v cause) : EntryFault (.object es) cause
  | values {es : List (String × Value)} {v : Value} {cause : ResultCause} (us ws : List Value)
    (hn : es.lookup "value" = none) (h : es.lookup "values" = some (.array (us ++ v :: ws)))
    (hus : ∀ u ∈ us, ∃ x, IsSample u x) (hv : SampleFault v cause) : EntryFault (.object es) cause
  | valuesNotArray {es : List (String × Value)} {v : Value} (hn : es.lookup "value" = none)
    (h : es.lookup "values" = some v) (hv : ∀ vs, v ≠ .array vs) :
    EntryFault (.object es) .valuesNotArray
  | noValues {es : List (String × Value)} (hn : es.lookup "value" = none)
    (h : es.lookup "values" = none) : EntryFault (.object es) .noValues

/-- The fault of a list of entries is that of the first one that is no series, whatever follows. -/
inductive FirstFault : List Value → ResultCause → Prop
  | entry {v : Value} {cause : ResultCause} (before after : List Value)
    (hbefore : ∀ u ∈ before, ∃ s, IsSeries u s) (hv : EntryFault v cause) :
    FirstFault (before ++ v :: after) cause

theorem samplePair_eq_error_iff (v : Value) (cause : ResultCause) :
    samplePair v = .error cause ↔ SampleFault v cause ∧ ∀ raw, cause ≠ .badValue raw := by
  constructor
  · intro h
    unfold samplePair at h
    split at h
    · next t x =>
      split at h
      · next ht =>
        cases h
        refine ⟨.timestamp fun n hn => ?_, nofun⟩
        rw [hn] at ht
        cases ht
      · next y ht hx =>
        cases h
        cases t <;> cases ht
        refine ⟨.text fun s hs => ?_, nofun⟩
        rw [hs] at hx
        cases hx
      · cases h
    · next hp =>
      cases h
      exact ⟨.notPair hp, nofun⟩
  · rintro ⟨h, hc⟩
    cases h with
    | notPair h =>
      unfold samplePair
      split
      · exact absurd rfl (h _ _)
      · rfl
    | @timestamp t x h =>
      cases t with
      | number n => exact absurd rfl (h n)
      | _ => rfl
    | @text n x h =>
      cases x with
      | string s => exact absurd rfl (h s)
      | _ => rfl
    | @value n raw h => exact absurd rfl (hc raw)

theorem sample_eq_error_iff (v : Value) (cause : ResultCause) :
    sample v = .error cause ↔ SampleFault v cause := by
  rw [sample, bind_eq_error_iff, samplePair_eq_error_iff]
  simp only [Prod.exists, samplePair_eq_ok_iff, sampleValue?_eq]
  constructor
  · rintro (⟨h, -⟩ | ⟨t, raw, ⟨n, rfl, rfl⟩, h⟩)
    · exact h
    · split at h
      · cases h
      · next hx =>
        cases h
        exact .value hx
  · intro h
    cases h with
    | @value n raw hx =>
      refine .inr ⟨n.toBinary64, raw, ⟨n, rfl, rfl⟩, ?_⟩
      rw [hx]
    | notPair hp => exact .inl ⟨.notPair hp, by simp⟩
    | timestamp ht => exact .inl ⟨.timestamp ht, by simp⟩
    | text hx => exact .inl ⟨.text hx, by simp⟩

theorem samples_eq_error_iff (es : List (String × Value)) (cause : ResultCause) :
    samples (.object es) = .error cause ↔ EntryFault (.object es) cause := by
  simp only [samples, Value.get?]
  constructor
  · intro h
    split at h
    · next v hv => exact .value hv ((sample_eq_error_iff v cause).mp (map_eq_error_iff.mp h))
    · next vs hn hvs =>
      obtain ⟨us, v, ws, rfl, hus, hv⟩ := mapM_eq_error_iff.mp h
      refine .values us ws hn hvs (fun u hu => ?_) ((sample_eq_error_iff v cause).mp hv)
      obtain ⟨x, hx⟩ := hus u hu
      exact ⟨x, (sample_eq_ok_iff u x).mp hx⟩
    · next v hv hn h' =>
      cases h
      exact .valuesNotArray hn h' hv
    · next hn hvs =>
      cases h
      exact .noValues hn hvs
  · intro h
    cases h with
    | notObject h => exact absurd rfl (h es)
    | @value _ v _ h hv =>
      rw [h]
      exact map_eq_error_iff.mpr ((sample_eq_error_iff v cause).mpr hv)
    | @values _ v _ us ws hn h hus hv =>
      rw [hn, h]
      refine mapM_eq_error_iff.mpr
        ⟨us, v, ws, rfl, fun u hu => ?_, (sample_eq_error_iff v cause).mpr hv⟩
      obtain ⟨x, hx⟩ := hus u hu
      exact ⟨x, (sample_eq_ok_iff u x).mpr hx⟩
    | @valuesNotArray _ v hn h hv =>
      rw [hn, h]
      cases v with
      | array vs => exact absurd rfl (hv vs)
      | _ => rfl
    | noValues hn h => rw [hn, h]

theorem series_eq_error_iff (v : Value) (cause : ResultCause) :
    series v = .error cause ↔ EntryFault v cause := by
  cases v with
  | object es => rw [series, map_eq_error_iff, samples_eq_error_iff]
  | _ =>
    constructor
    · intro h
      cases h
      exact .notObject nofun
    · intro h
      cases h
      rfl

/-- The series of a list of entries cannot be had exactly for its first fault. -/
theorem mapM_series_eq_error_iff (vs : List Value) (cause : ResultCause) :
    vs.mapM series = .error cause ↔ FirstFault vs cause := by
  rw [mapM_eq_error_iff]
  constructor
  · rintro ⟨before, v, after, rfl, hbefore, hv⟩
    refine .entry before after (fun u hu => ?_) ((series_eq_error_iff v cause).mp hv)
    obtain ⟨s, hs⟩ := hbefore u hu
    exact ⟨s, (series_eq_ok_iff u s).mp hs⟩
  · rintro @⟨v, _, before, after, hbefore, hv⟩
    refine ⟨before, v, after, rfl, fun u hu => ?_, (series_eq_error_iff v cause).mpr hv⟩
    obtain ⟨s, hs⟩ := hbefore u hu
    exact ⟨s, (series_eq_ok_iff u s).mpr hs⟩

/-! ## Bodies with a list -/

/-- The members of a body and of its data, the result of which is the list `vs`: its type is neither
that of a scalar nor that of a string. -/
structure HasList (ms data : List (String × Value)) (vs : List Value) : Prop where
  hasData : ms.lookup "data" = some (.object data)
  hasResult : data.lookup "result" = some (.array vs)
  notScalar : data.lookup "resultType" ≠ some (.string "scalar")
  notString : data.lookup "resultType" ≠ some (.string "string")

/-- The body with another list for its result. -/
def withResult (ms data : List (String × Value)) (vs : List Value) : Value :=
  .object (Entries.insert "data" (.object (Entries.insert "result" (.array vs) data)) ms)

/-- The entry with other samples. -/
def withValues (es : List (String × Value)) (vs : List Value) : Value :=
  .object (Entries.insert "values" (.array vs) es)

/-- What a body comes to that may report an error, and has the list `vs` for its result. -/
def listed (query : String) (reported : Option ResultCause) (vs : List Value) :
    Except Fault (List Series) :=
  (reported.elim (vs.mapM series) .error).mapError (.result query)

/-- The error that the members of a body report. -/
def reported? (ms : List (String × Value)) : Option ResultCause :=
  if memberText? (.object ms) "status" = some "error" then
    some (.reported ((memberText? (.object ms) "errorType").getD "unknown")
      ((memberText? (.object ms) "error").getD ""))
  else none

theorem reported?_eq_none_iff {ms : List (String × Value)} :
    reported? ms = none ↔ ms.lookup "status" ≠ some (.string "error") := by
  rw [Ne, ← bind_asString?_eq_some_iff, reported?]
  show (if (ms.lookup "status").bind Value.asString? = some "error" then _ else none) = none ↔ _
  split
  · next h => exact ⟨nofun, fun hn => absurd h hn⟩
  · next h => exact ⟨fun _ => h, fun _ => rfl⟩

theorem reported?_insert_data (ms : List (String × Value)) (v : Value) :
    reported? (Entries.insert "data" v ms) = reported? ms := by
  have hkeep : ∀ k, k ≠ "data" →
      memberText? (.object (Entries.insert "data" v ms)) k = memberText? (.object ms) k := by
    intro k hk
    simp only [memberText?, Value.get?, Entries.lookup_insert, if_neg hk]
  rw [reported?, hkeep "status" (by decide), hkeep "errorType" (by decide),
    hkeep "error" (by decide), reported?]

variable {ms data es : List (String × Value)} {vs : List Value}

theorem HasList.decode_eq (h : HasList ms data vs) (query : String) :
    decode query (.object ms) = listed query (reported? ms) vs := by
  have hs := (bind_asString?_eq_some_iff (data.lookup "resultType") "scalar").not.mpr h.notScalar
  have ht := (bind_asString?_eq_some_iff (data.lookup "resultType") "string").not.mpr h.notString
  rw [decode, listed, reported?, ofBody]
  split
  · rfl
  · simp only [Value.get?, h.hasData, h.hasResult]
    exact congrArg _ (results_list hs ht vs)

/-- With another list for its result the body has that list. -/
theorem HasList.withResult (h : HasList ms data vs) (ws : List Value) :
    HasList (Entries.insert "data" (.object (Entries.insert "result" (.array ws) data)) ms)
      (Entries.insert "result" (.array ws) data) ws where
  hasData := by rw [Entries.lookup_insert, if_pos rfl]
  hasResult := by rw [Entries.lookup_insert, if_pos rfl]
  notScalar := by
    rw [Entries.lookup_insert, if_neg (by decide)]
    exact h.notScalar
  notString := by
    rw [Entries.lookup_insert, if_neg (by decide)]
    exact h.notString

theorem HasList.decode_withResult (h : HasList ms data vs) (query : String) (ws : List Value) :
    decode query (Decoder.withResult ms data ws) = listed query (reported? ms) ws := by
  rw [Decoder.withResult, (h.withResult ws).decode_eq, reported?_insert_data]

/-! ## Cuts -/

/-- A list that is cut fails as its parts do in turn, in a body too. -/
theorem inTurn_listed {xs ys : List Value}
    {join : List Series → List Series → List Series → Prop}
    (h : InTurn (xs.mapM series) (ys.mapM series) (vs.mapM series) join) (query : String)
    (cause : Option ResultCause) :
    InTurn (listed query cause xs) (listed query cause ys) (listed query cause vs) join := by
  cases cause with
  | none => exact h.mapError _
  | some cause => exact inTurn_error _ _

/-- A series is cut into one with the earlier and one with the later of its samples. -/
inductive CutSeries : Series → Series → Series → Prop
  | cut (ls : List (String × String)) (xs ys : List Sample) :
    CutSeries ⟨ls, xs, none⟩ ⟨ls, ys, none⟩ ⟨ls, xs ++ ys, none⟩

/-- A list of series is cut within one of them. -/
inductive CutWithin : List Series → List Series → List Series → Prop
  | cut {s t u : Series} (before after : List Series) (h : CutSeries s t u) :
    CutWithin (before ++ [s]) (t :: after) (before ++ u :: after)

theorem series_withValues (hn : es.lookup "value" = none) (vs : List Value) :
    series (withValues es vs) =
      (vs.mapM sample).map fun xs => ⟨labels (es.lookup "metric"), xs, none⟩ := by
  simp only [withValues, series, samples, Value.get?, Entries.lookup_insert, String.reduceEq,
    if_false, if_true, hn]

theorem series_values (hn : es.lookup "value" = none) (h : es.lookup "values" = some (.array vs)) :
    series (.object es) =
      (vs.mapM sample).map fun xs => ⟨labels (es.lookup "metric"), xs, none⟩ := by
  simp only [series, samples, Value.get?, hn, h]

/-- An entry that is cut between two of its samples fails as its parts do in turn. -/
theorem inTurn_series {us ws : List Value} (hn : es.lookup "value" = none)
    (h : es.lookup "values" = some (.array (us ++ ws))) :
    InTurn (series (withValues es us)) (series (withValues es ws)) (series (.object es))
      CutSeries := by
  rw [series_withValues hn, series_withValues hn, series_values hn h]
  refine (inTurn_mapM_append sample us ws).map fun xs ys zs hz => ?_
  rw [hz]
  exact .cut _ xs ys

theorem inTurn_within {before after us ws : List Value} (hn : es.lookup "value" = none)
    (h : es.lookup "values" = some (.array (us ++ ws))) :
    InTurn ((before ++ [withValues es us]).mapM series) ((withValues es ws :: after).mapM series)
      ((before ++ .object es :: after).mapM series) CutWithin := by
  have hin := inTurn_mapM_within before after (inTurn_series hn h)
  refine ⟨fun as bs ha hb => ?_, hin.first, hin.second⟩
  obtain ⟨cs, hc, l, s, t, u, r, rfl, rfl, rfl, hcut⟩ := hin.joined as bs ha hb
  exact ⟨_, hc, .cut l r hcut⟩

/-- A body with a list for its result is decoded from the front, so that the first fault in it is
the fault of the body. If the list is cut between two entries, or within an entry that has no single
value between two of its samples, the fault of the part before the cut is the one reported, whatever
comes after it. The fault of the part after the cut is reported where there is none before, and the
series of both parts are joined where there is none in either. A body without an error of its own has
exactly the first fault of its list, and if it has series there is one for every entry. -/
theorem faults_in_order (query : String) (h : HasList ms data vs) :
    (∀ xs ys, vs = xs ++ ys →
      InTurn (decode query (withResult ms data xs)) (decode query (withResult ms data ys))
        (decode query (.object ms)) fun ss ts rs => rs = ss ++ ts) ∧
    (∀ before es after us ws, vs = before ++ .object es :: after → es.lookup "value" = none →
      es.lookup "values" = some (.array (us ++ ws)) →
      InTurn (decode query (withResult ms data (before ++ [withValues es us])))
        (decode query (withResult ms data (withValues es ws :: after)))
        (decode query (.object ms)) CutWithin) ∧
    (ms.lookup "status" ≠ some (.string "error") →
      (∀ f, decode query (.object ms) = .error f ↔ ∃ cause, FirstFault vs cause ∧
        Fault.result query cause = f) ∧
      ∀ ss, decode query (.object ms) = .ok ss → List.Forall₂ IsSeries vs ss) := by
  simp only [h.decode_withResult, h.decode_eq]
  refine ⟨fun xs ys hvs => ?_, fun before es after us ws hvs hn hes => ?_, fun hs => ?_⟩
  · rw [hvs]
    exact inTurn_listed (inTurn_mapM_append series xs ys) query _
  · rw [hvs]
    exact inTurn_listed (inTurn_within hn hes) query _
  · rw [reported?_eq_none_iff.mpr hs]
    refine ⟨fun f => ?_, fun ss hss => ?_⟩
    · simp only [listed, Option.elim, mapError_eq_error_iff, mapM_series_eq_error_iff]
    · have hok := mapM_eq_ok_iff.mp (mapError_eq_ok_iff.mp hss)
      exact hok.imp fun v s => (series_eq_ok_iff v s).mp

/-- The fault is that of the second sample of the first entry, though a sample before it is valid
and the next entry is none at all: it is the fault after a cut between the two samples. -/
theorem faults_in_order_second :
    let good : Value := .array [.number (.natural 1), .string "1"]
    let bad : Value := .array [.number (.natural 2), .string "x"]
    let es : List (String × Value) := [("values", .array [good, bad])]
    let data : List (String × Value) := [("result", .array [.object es, .null])]
    let ms : List (String × Value) := [("data", .object data), ("status", .string "success")]
    HasList ms data [.object es, .null] ∧
      InTurn (decode "up" (withResult ms data [withValues es [good]]))
        (decode "up" (withResult ms data [withValues es [bad], .null]))
        (decode "up" (.object ms)) CutWithin ∧
      decode "up" (.object ms) = .error (.result "up" (.badValue "x")) := by
  intro good bad es data ms
  have hlist : HasList ms data [.object es, .null] := ⟨rfl, rfl, nofun, nofun⟩
  have hgood : IsSample good _ := .pair (x := .ofNat 1) (by decide +kernel)
  have hbad : SampleFault bad (.badValue "x") := .value (by decide +kernel)
  have hentry : EntryFault (.object es) (.badValue "x") :=
    .values [good] [] rfl rfl (List.forall_mem_singleton.mpr ⟨_, hgood⟩) hbad
  have hfault : FirstFault [.object es, .null] (.badValue "x") :=
    .entry [] [.null] (fun u hu => absurd hu List.not_mem_nil) hentry
  have hstatus : ms.lookup "status" = some (.string "success") := rfl
  obtain ⟨-, hcut, hreported⟩ := faults_in_order "up" hlist
  have hfaults := (hreported (by simp [hstatus])).1 (.result "up" (.badValue "x"))
  exact ⟨hlist, hcut [] es [.null] [good] [bad] rfl rfl rfl,
    hfaults.mpr ⟨.badValue "x", hfault, rfl⟩⟩

end MetricsQuery.Decoder
