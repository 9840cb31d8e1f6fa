import MetricsQuery.Command.Block
import MetricsQuery.Proofs.Json.Printer

/-!
# What is printed for a query

A block of text is the query, its warnings and then the line of its fault or the lines of its series
(`Delivery.IsText`): of each series its labels, its text if it has one and a line a sample, and one
line of their own if there are none. What a line is shows in its third character
(`Series.getElem?_two`). A block of JSON is one document of the same (`Delivery.IsJson`).
-/

namespace MetricsQuery

/-! ## Text -/

/-- The labels of a series as they stand between its braces. -/
inductive IsLabelList : List (String × String) → String → Prop
  | none : IsLabelList [] ""
  | last (name value : String) : IsLabelList [(name, value)] (name ++ "=\"" ++ value ++ "\"")
  | cons {name value rest : String} {l : String × String} {ls : List (String × String)}
    (h : IsLabelList (l :: ls) rest) :
    IsLabelList ((name, value) :: l :: ls) (name ++ "=\"" ++ value ++ "\"" ++ ", " ++ rest)

/-- The line of a sample. -/
def Sample.IsText (x : Sample) (l : String) : Prop :=
  l = "    " ++ x.value.positional ++ " @ " ++ x.timestamp.positional

/-- The lines of a series: its labels, its text if it has one, and its samples in their order. -/
inductive Series.IsText (s : Series) : List String → Prop
  | samples {labels : String} {lines : List String} (hl : IsLabelList s.labels labels)
    (ht : s.text = none) (hs : List.Forall₂ Sample.IsText s.samples lines) :
    IsText s (("  \x7b" ++ labels ++ "\x7d") :: lines)
  | text {labels t : String} {lines : List String} (hl : IsLabelList s.labels labels)
    (ht : s.text = some t) (hs : List.Forall₂ Sample.IsText s.samples lines) :
    IsText s (("  \x7b" ++ labels ++ "\x7d") :: ("    \"" ++ t ++ "\"") :: lines)

/-- The lines of several series, one after another; there is a line that says so if there is none. -/
inductive ListsSeries : List Series → List String → Prop
  | none : ListsSeries [] ["  (no data)"]
  | some {ss : List Series} {blocks : List (List String)} (hne : ss ≠ [])
    (h : List.Forall₂ Series.IsText ss blocks) : ListsSeries ss blocks.flatten

/-- The line of a fault. -/
def Fault.line (f : Fault) : String := "  error: " ++ f.message

/-- A line that looks like that of a fault. -/
def IsErrorLine (l : String) : Prop := "  error: ".toList <+: l.toList

namespace Delivery

/-- A block of text starts with the query and the warnings. It ends with the line of the fault, or
with lines of series, none of which looks like that of a fault; one of them says that there is no
series exactly if that is so. -/
inductive IsText (d : Delivery) : List String → Prop
  | failed {f : Fault} (hf : d.fault = some f) :
    IsText d (d.query :: (d.warnings.map ("  warning: " ++ ·)) ++ [f.line])
  | answered {lines : List String} (hf : d.fault = none) (hs : ListsSeries d.results lines)
    (he : ∀ l ∈ lines, ¬ IsErrorLine l) (hn : "  (no data)" ∈ lines ↔ d.results = []) :
    IsText d (d.query :: (d.warnings.map ("  warning: " ++ ·)) ++ lines)

end Delivery

/-- A list is related item by item to what is made of its items. -/
theorem forall₂_map {α β : Type} {R : α → β → Prop} {f : α → β} (h : ∀ a, R a (f a)) (xs : List α) :
    List.Forall₂ R xs (xs.map f) :=
  List.forall₂_map_right_iff.mpr (List.forall₂_same.mpr fun a _ => h a)

theorem isLabelList_intercalate (ls : List (String × String)) :
    IsLabelList ls
      (String.intercalate ", " (ls.map fun (k, v) => k ++ "=\"" ++ v ++ "\"")) := by
  induction ls with
  | nil => exact .none
  | cons l ls ih =>
    cases ls with
    | nil => exact .last l.1 l.2
    | cons l' ls =>
      rw [List.map_cons, List.map_cons, String.intercalate_cons_cons]
      exact .cons ih

theorem Sample.isText_line (x : Sample) : x.IsText x.line := rfl

theorem Series.isText_lines (s : Series) : s.IsText s.lines := by
  have hlabels := isLabelList_intercalate s.labels
  have hsamples : List.Forall₂ Sample.IsText s.samples (s.samples.map Sample.line) :=
    forall₂_map Sample.isText_line s.samples
  cases ht : s.text with
  | none =>
    rw [lines, ht]
    exact .samples hlabels ht hsamples
  | some t =>
    rw [lines, ht]
    exact .text hlabels ht hsamples

theorem listsSeries_seriesLines (ss : List Series) : ListsSeries ss (seriesLines ss) := by
  rw [seriesLines]
  split
  · next h =>
    subst h
    exact .none
  · next h =>
    rw [List.flatMap_def]
    exact .some h (forall₂_map Series.isText_lines ss)

/-! ## Kinds of lines -/

/-- A line of a fault has a letter after its two blanks. -/
theorem not_isErrorLine {l : String} (h : l.toList[2]? ≠ some 'e') : ¬ IsErrorLine l := by
  rintro ⟨rest, hrest⟩
  rw [← hrest] at h
  exact h rfl

/-- A line of a series has a brace or a blank there. -/
theorem Series.getElem?_two (s : Series) {l : String} (hl : l ∈ s.lines) :
    l.toList[2]? = some '{' ∨ l.toList[2]? = some ' ' := by
  rw [lines, List.mem_append, List.mem_cons, List.mem_map, List.mem_map] at hl
  rcases hl with (rfl | ⟨t, -, rfl⟩) | ⟨x, -, rfl⟩
  · simp [heading, String.toList_append]
  · simp [String.toList_append]
  · simp [Sample.line, String.toList_append]

theorem not_isErrorLine_seriesLines (ss : List Series) :
    ∀ l ∈ seriesLines ss, ¬ IsErrorLine l := by
  intro l hl
  rw [seriesLines] at hl
  split at hl
  · rw [List.mem_singleton.mp hl]
    exact not_isErrorLine (by decide)
  · obtain ⟨s, -, hs⟩ := List.mem_flatMap.mp hl
    rcases s.getElem?_two hs with h | h
    · exact not_isErrorLine (by rw [h]; decide)
    · exact not_isErrorLine (by rw [h]; decide)

theorem noData_mem_seriesLines (ss : List Series) : "  (no data)" ∈ seriesLines ss ↔ ss = [] := by
  rw [seriesLines]
  split
  · next h => simp only [h, List.mem_singleton]
  · next h =>
    refine ⟨fun hmem => ?_, fun he => absurd he h⟩
    obtain ⟨s, -, hs⟩ := List.mem_flatMap.mp hmem
    have hparen : "  (no data)".toList[2]? = some '(' := by decide
    rcases s.getElem?_two hs with hthird | hthird
    · exact absurd (hparen.symm.trans hthird) (by decide)
    · exact absurd (hparen.symm.trans hthird) (by decide)

namespace Delivery

theorem isText_lines (d : Delivery) : d.IsText d.lines := by
  unfold lines
  cases hf : d.fault with
  | some f => exact .failed hf
  | none =>
    exact .answered hf (listsSeries_seriesLines d.results)
      (not_isErrorLine_seriesLines d.results) (noData_mem_seriesLines d.results)

/-- A block has a line that looks like that of a fault, after its query, only if there is a fault. -/
theorem fault_eq_none_iff (d : Delivery) :
    d.fault = none ↔ ∀ l ∈ d.lines.tail, ¬ IsErrorLine l := by
  have hwarnings : ∀ l ∈ d.warnings.map ("  warning: " ++ ·), ¬ IsErrorLine l := by
    intro l hl
    obtain ⟨w, -, rfl⟩ := List.mem_map.mp hl
    apply not_isErrorLine
    simp [String.toList_append]
  constructor
  · intro hf l hl
    simp only [lines, hf, List.cons_append, List.tail_cons, List.mem_append] at hl
    rcases hl with hl | hl
    · exact hwarnings l hl
    · exact not_isErrorLine_seriesLines d.results l hl
  · intro h
    cases hf : d.fault with
    | none => rfl
    | some f =>
      have hmem : f.line ∈ d.lines.tail := by
        simp only [lines, hf, List.cons_append, List.tail_cons, List.mem_append]
        exact .inr List.mem_cons_self
      have hline : IsErrorLine f.line := by
        rw [IsErrorLine, Fault.line, String.toList_append]
        exact List.prefix_append _ _
      exact absurd hline (h f.line hmem)

end Delivery

/-! ## JSON -/

/-- A number as JSON; one that is not finite is null. -/
inductive Binary64.IsJson : Binary64 → Json.Value → Prop
  | finite (negative : Bool) (units : Nat) :
    IsJson (.finite negative units) (.number (.float (.finite negative units)))
  | infinite (negative : Bool) : IsJson (.infinite negative) .null
  | nan : IsJson .nan .null

structure Sample.IsJson (x : Sample) (v : Json.Value) : Prop where
  timestamp : ∃ t, v.get? "timestamp" = some t ∧ x.timestamp.IsJson t
  value : ∃ y, v.get? "value" = some y ∧ x.value.IsJson y

/-- A series as JSON; only a string result has a text. -/
structure Series.IsJson (s : Series) (v : Json.Value) : Prop where
  metric : v.get? "metric" = some (.object (s.labels.map fun (name, value) => (name, .string value)))
  values : ∃ vs, v.get? "values" = some (.array vs) ∧ List.Forall₂ Sample.IsJson s.samples vs
  text : v.get? "text" = s.text.map .string

/-- A block of JSON is one document, which has the query, the warnings, the message of the fault, or
null if there is none, and the series. -/
inductive Delivery.IsJson (d : Delivery) : List String → Prop
  | mk {text : String} {v : Json.Value} {vs : List Json.Value}
    (hd : Json.IsDocument v (text ++ "\n")) (hq : v.get? "query" = some (.string d.query))
    (hw : v.get? "warnings" = some (.array (d.warnings.map .string)))
    (he : v.get? "error" = some (d.fault.elim .null fun f => .string f.message))
    (hr : v.get? "results" = some (.array vs)) (hs : List.Forall₂ Series.IsJson d.results vs) :
    IsJson d [text]

theorem Binary64.isJson_json (x : Binary64) : x.IsJson x.json := by
  cases x with
  | finite negative units => exact .finite negative units
  | infinite negative => exact .infinite negative
  | nan => exact .nan

theorem Sample.isJson_json (x : Sample) : x.IsJson x.json where
  timestamp := ⟨_, rfl, x.timestamp.isJson_json⟩
  value := ⟨_, rfl, x.value.isJson_json⟩

theorem get?_ofMembers (ms : List (String × Json.Value)) (key : String) :
    (Json.Value.ofMembers ms).get? key = ms.reverse.lookup key := Entries.lookup_ofList ms key

theorem Series.isJson_members (s : Series) : s.IsJson (.ofMembers s.members) where
  metric := by
    rw [get?_ofMembers, members]
    cases s.text <;> rfl
  values := by
    refine ⟨s.samples.map Sample.json, ?_, forall₂_map Sample.isJson_json s.samples⟩
    rw [get?_ofMembers, members]
    cases s.text <;> rfl
  text := by
    rw [get?_ofMembers, members]
    cases s.text <;> rfl

theorem Binary64.prints_json (x : Binary64) : x.json.Prints := by
  cases x with
  | finite negative u => exact fun _ => .number (Json.isNumber_scientific negative u)
  | nan => exact Json.Value.prints_null
  | infinite => exact Json.Value.prints_null

theorem Sample.prints_json (x : Sample) : x.json.Prints :=
  Json.Value.prints_object <| List.forall_mem_cons.mpr ⟨x.timestamp.prints_json,
    List.forall_mem_singleton.mpr x.value.prints_json⟩

theorem Series.prints_members (s : Series) : ∀ m ∈ s.members, m.2.Prints := by
  intro m hm
  simp only [members, List.cons_append, List.nil_append, List.mem_cons, List.mem_map] at hm
  rcases hm with rfl | rfl | ⟨t, -, rfl⟩
  · refine Json.Value.prints_object fun m hm => ?_
    obtain ⟨⟨k, v⟩, -, rfl⟩ := List.mem_map.mp hm
    exact Json.Value.prints_string v
  · refine Json.Value.prints_array fun v hv => ?_
    obtain ⟨x, -, rfl⟩ := List.mem_map.mp hv
    exact x.prints_json
  · exact Json.Value.prints_string t

theorem prints_seriesJson (ss : List Series) : (seriesJson ss).Prints := by
  refine Json.Value.prints_array fun v hv => ?_
  obtain ⟨s, -, rfl⟩ := List.mem_map.mp hv
  exact Json.Value.prints_object s.prints_members

namespace Delivery

theorem prints_json (d : Delivery) : d.json.Prints := by
  refine Json.Value.prints_ofMembers fun m hm => ?_
  simp only [List.mem_cons, List.not_mem_nil, or_false] at hm
  rcases hm with rfl | rfl | rfl | rfl
  · exact Json.Value.prints_string d.query
  · refine Json.Value.prints_array fun v hv => ?_
    obtain ⟨w, -, rfl⟩ := List.mem_map.mp hv
    exact Json.Value.prints_string w
  · cases d.fault with
    | none => exact Json.Value.prints_null
    | some f => exact Json.Value.prints_string f.message
  · refine Json.Value.prints_array fun v hv => ?_
    obtain ⟨s, -, rfl⟩ := List.mem_map.mp hv
    exact Json.Value.prints_ofMembers s.prints_members

theorem isJson_block (d : Delivery) : d.IsJson (d.block true) := by
  refine .mk d.prints_json.isDocument ?_ ?_ ?_ ?_ (forall₂_map Series.isJson_members d.results)
  all_goals
    rw [Delivery.json, get?_ofMembers]
    rfl

end Delivery

end MetricsQuery
