import MetricsQuery.Query.Warning

/-!
# Which warnings count

A body lists the strings of its `warnings` array (`Lists`, `lists_ofBody`), and a warning says that
stores are missing if the marker stands anywhere in it (`Marked`, `isStoresMissing_iff`). The first
warning of that kind decides: `classify_of_first` if there is one, `classify_of_none` if not.
-/

namespace MetricsQuery.Warning

/-! ## The marker -/

/-- A text that occurs in another is a part of it. -/
theorem occurs_iff_infix (needle hay : List Char) : occurs needle hay = true ↔ needle <:+: hay := by
  induction hay with
  | nil =>
    rw [occurs, List.isEmpty_iff]
    exact List.infix_nil.symm
  | cons c cs ih =>
    rw [occurs, Bool.or_eq_true, List.isPrefixOf_iff_prefix, ih]
    exact List.infix_cons_iff.symm

/-- A warning with the marker in it, wherever it stands. -/
def Marked (w : String) : Prop := ∃ before after, w = before ++ storesMissingMarker ++ after

theorem isStoresMissing_iff (w : String) : isStoresMissing w = true ↔ Marked w := by
  rw [isStoresMissing, occurs_iff_infix]
  constructor
  · rintro ⟨xs, ys, h⟩
    refine ⟨String.ofList xs, String.ofList ys, String.toList_inj.mp ?_⟩
    rw [← h]
    simp only [String.toList_append, String.toList_ofList]
  · rintro ⟨before, after, rfl⟩
    exact ⟨before.toList, after.toList, by simp only [String.toList_append]⟩

theorem not_marked_iff (w : String) : isStoresMissing w = false ↔ ¬ Marked w := by
  rw [← isStoresMissing_iff, Bool.not_eq_true]

/-! ## The warnings of a body -/

/-- The warnings of a body: the strings of the `warnings` array of an object, in order, and none for
a body that is no object or has no such array. -/
inductive Lists : Json.Value → List String → Prop
  | array {ms : List (String × Json.Value)} {vs : List Json.Value}
      (h : ms.lookup "warnings" = some (.array vs)) :
      Lists (.object ms) (vs.filterMap Json.Value.asString?)
  | noArray {ms : List (String × Json.Value)}
      (h : ∀ vs, ms.lookup "warnings" ≠ some (.array vs)) : Lists (.object ms) []
  | noObject {v : Json.Value} (h : ∀ ms, v ≠ .object ms) : Lists v []

theorem Lists.eq_ofBody {v : Json.Value} {ws : List String} (h : Lists v ws) : ws = ofBody v := by
  cases h with
  | array h => simp only [ofBody, Json.Value.get?, h, Option.bind_some, Json.Value.asArray?,
      Option.getD_some]
  | @noArray ms h =>
    simp only [ofBody, Json.Value.get?]
    match hl : ms.lookup "warnings" with
    | some (.array vs) => exact absurd hl (h vs)
    | some .null | some (.bool _) | some (.number _) | some (.string _) | some (.object _)
    | none => rfl
  | noObject h =>
    cases v with
    | object ms => exact absurd rfl (h ms)
    | _ => rfl

theorem lists_ofBody (v : Json.Value) : Lists v (ofBody v) := by
  cases v with
  | object ms =>
    by_cases h : ∃ vs, ms.lookup "warnings" = some (.array vs)
    · obtain ⟨vs, hvs⟩ := h
      have ha := Lists.array hvs
      rwa [ha.eq_ofBody] at ha
    · have ha := Lists.noArray fun vs hvs => h ⟨vs, hvs⟩
      rwa [ha.eq_ofBody] at ha
  | _ => exact .noObject fun ms h => by cases h

/-! ## The first marked warning -/

theorem find?_first {before after : List String} {w : String} (hb : ∀ x ∈ before, ¬ Marked x)
    (hw : Marked w) : (before ++ w :: after).find? isStoresMissing = some w := by
  rw [List.find?_eq_some_iff_append]
  refine ⟨(isStoresMissing_iff w).mpr hw, before, after, rfl, fun x hx => ?_⟩
  rw [(not_marked_iff x).mpr (hb x hx)]
  rfl

/-- The first warning that says that stores are missing is the fault. -/
theorem classify_of_first (query : String) (body : List UInt8) {before after : List String}
    {w : String} (hb : ∀ x ∈ before, ¬ Marked x) (hw : Marked w) :
    (classify query body (before ++ w :: after)).2 =
      .error (.storesMissing w (Utf8.decodeLossy body) query) := by
  simp only [classify, find?_first hb hw]

/-- Without such a warning there is no fault. -/
theorem classify_of_none (query : String) (body : List UInt8) {ws : List String}
    (h : ∀ x ∈ ws, ¬ Marked x) : (classify query body ws).2 = .ok () := by
  have hf : ws.find? isStoresMissing = none :=
    List.find?_eq_none.mpr fun x hx => by rw [(not_marked_iff x).mpr (h x hx)]; decide
  simp only [classify, hf]

/-- The warnings before and after the first one that says that stores are missing, if there is
one. -/
theorem first_or_none (ws : List String) :
    (∀ x ∈ ws, ¬ Marked x) ∨
      ∃ before w after, ws = before ++ w :: after ∧ (∀ x ∈ before, ¬ Marked x) ∧ Marked w := by
  cases hf : ws.find? isStoresMissing with
  | none =>
    refine .inl fun x hx hm => List.find?_eq_none.mp hf x hx ?_
    exact (isStoresMissing_iff x).mpr hm
  | some w =>
    obtain ⟨hw, before, after, e, hb⟩ := List.find?_eq_some_iff_append.mp hf
    refine .inr ⟨before, w, after, e, fun x hx => (not_marked_iff x).mp ?_,
      (isStoresMissing_iff w).mp hw⟩
    simpa using hb x hx

end MetricsQuery.Warning
