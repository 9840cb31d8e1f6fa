import Mathlib.Data.List.TakeWhile
import MetricsQuery.Text.Blank

/-!
# Splitting and trimming text

A text falls apart where a property of its characters ends: `Runs` says so without naming the
functions that do it, and `runs_iff` that they do it. Trimmed text is what is left between the blanks at
both ends (`isTrimmed_iff`).
-/

namespace MetricsQuery.Text

variable {α : Type} {p : α → Bool} {cs xs rest : List α}

/-- All items of `xs`, which `cs` starts with, have the property, and the next item has not. -/
structure Runs (p : α → Bool) (cs xs rest : List α) : Prop where
  append : cs = xs ++ rest
  all : ∀ a ∈ xs, p a = true
  stop : ∀ a, rest.head? = some a → p a = false

/-- A list falls apart where a property of its items ends. -/
theorem runs_split (p : α → Bool) (cs : List α) : Runs p cs (cs.takeWhile p) (cs.dropWhile p) where
  append := List.takeWhile_append_dropWhile.symm
  all _ ha := List.mem_takeWhile_imp ha
  stop a ha := by
    have hnot := List.head?_dropWhile_not p cs
    rw [ha] at hnot
    exact hnot

/-- It does so in one way. -/
theorem runs_iff : Runs p cs xs rest ↔ xs = cs.takeWhile p ∧ rest = cs.dropWhile p := by
  constructor
  · rintro ⟨rfl, hall, hstop⟩
    rw [List.takeWhile_append_of_pos hall, List.dropWhile_append_of_pos hall]
    cases rest with
    | nil => exact ⟨(List.append_nil _).symm, rfl⟩
    | cons a rest =>
      have ha : ¬ p a = true := by rw [hstop a rfl]; decide
      rw [List.takeWhile_cons_of_neg ha, List.dropWhile_cons_of_neg ha]
      exact ⟨(List.append_nil _).symm, rfl⟩
  · rintro ⟨rfl, rfl⟩
    exact runs_split p cs

theorem Runs.takeWhile_eq (h : Runs p cs xs rest) : cs.takeWhile p = xs := (runs_iff.mp h).1.symm

theorem Runs.drop_eq (h : Runs p cs xs rest) : cs.drop xs.length = rest := by
  rw [h.append, List.drop_left]

/-- The text `t` is `cs` without the blanks at its two ends. -/
structure IsTrimmed (cs t : List Char) : Prop where
  between : ∃ before after, cs = before ++ t ++ after ∧ (∀ c ∈ before, isBlank c = true) ∧
    ∀ c ∈ after, isBlank c = true
  head : ∀ c, t.head? = some c → isBlank c = false
  last : ∀ c, t.getLast? = some c → isBlank c = false

theorem isTrimmed_trim (cs : List Char) : IsTrimmed cs (trim cs) := by
  obtain ⟨hcs, hbefore, hhead⟩ := runs_split isBlank cs
  obtain ⟨hu, hafter, hlast⟩ := runs_split isBlank (cs.dropWhile isBlank).reverse
  -- What is left after the first blanks ends in the trimmed text and the last blanks.
  have hsplit : cs.dropWhile isBlank =
      trim cs ++ ((cs.dropWhile isBlank).reverse.takeWhile isBlank).reverse := by
    have h := congrArg List.reverse hu
    rwa [List.reverse_reverse, List.reverse_append] at h
  refine ⟨⟨_, _, by rw [List.append_assoc, ← hsplit]; exact hcs, hbefore, fun c hc =>
    hafter c (List.mem_reverse.mp hc)⟩, fun c hc => hhead c ?_, fun c hc => hlast c ?_⟩
  · rw [hsplit, List.head?_append, hc]
    rfl
  · rwa [trim, trimWith, List.getLast?_reverse] at hc

/-- Trimming gives the one text that is trimmed. -/
theorem isTrimmed_iff {cs t : List Char} : IsTrimmed cs t ↔ t = trim cs := by
  refine ⟨fun h => ?_, fun h => h ▸ isTrimmed_trim cs⟩
  obtain ⟨⟨before, after, rfl, hbefore, hafter⟩, hhead, hlast⟩ := h
  rw [trim, trimWith, List.append_assoc, List.dropWhile_append_of_pos hbefore]
  cases t with
  | nil =>
    rw [List.nil_append, List.dropWhile_eq_nil_iff.mpr hafter]
    rfl
  | cons c t =>
    have hc : ¬ isBlank c = true := by rw [hhead c rfl]; decide
    have hruns : Runs isBlank (after.reverse ++ (c :: t).reverse) after.reverse (c :: t).reverse :=
      ⟨rfl, fun a ha => hafter a (List.mem_reverse.mp ha), fun a ha =>
        hlast a (by rwa [List.head?_reverse] at ha)⟩
    rw [List.cons_append, List.dropWhile_cons_of_neg hc, ← List.cons_append, List.reverse_append,
      ← (runs_iff.mp hruns).2, List.reverse_reverse]

end MetricsQuery.Text
