import Mathlib.Data.List.Induction
import Mathlib.Data.List.Nodup
import Mathlib.Data.List.Perm.Basic

/-!
# What stands at the places of a list

Lists that only grow and whose items are changed in place are spoken about by the places of the
items: what is there after an item was added or changed, and what a list gives when some of its
places give something and the others nothing.
-/

namespace MetricsQuery.Places

variable {α β : Type} {xs : List α} {x y z : α} {i j : Nat}

theorem getElem?_concat_eq_some :
    (xs ++ [x])[j]? = some y ↔ xs[j]? = some y ∨ j = xs.length ∧ y = x := by
  rcases Nat.lt_trichotomy j xs.length with hj | rfl | hj
  · rw [List.getElem?_append_left hj]
    simp [Nat.ne_of_lt hj]
  · simp [eq_comm]
  · rw [List.getElem?_append_right (Nat.le_of_lt hj), List.getElem?_eq_none (Nat.le_of_lt hj)]
    simp [Nat.ne_of_gt hj, Nat.sub_eq_zero_iff_le, Nat.not_le_of_lt hj]

theorem getElem?_set_eq_some (h : xs[i]? = some x) :
    (xs.set i y)[j]? = some z ↔ j = i ∧ z = y ∨ j ≠ i ∧ xs[j]? = some z := by
  obtain ⟨hi, -⟩ := List.getElem?_eq_some_iff.mp h
  rw [List.getElem?_set]
  by_cases hj : i = j
  · subst hj
    simp [hi, eq_comm]
  · simp [hj, Ne.symm hj]

/-- An item that is changed to one that gives the same. -/
theorem getElem?_set_bind {f : α → Option β} (h : xs[i]? = some x) (e : f y = f x) (j : Nat) :
    (xs.set i y)[j]?.bind f = xs[j]?.bind f := by
  rw [List.getElem?_set]
  split
  · next hj =>
    subst hj
    obtain ⟨hi, -⟩ := List.getElem?_eq_some_iff.mp h
    rw [if_pos hi, h, Option.bind_some, Option.bind_some, e]
  · rfl

theorem flatMap_set {f : α → List β} (h : xs[i]? = some x) (e : f y = f x) :
    (xs.set i y).flatMap f = xs.flatMap f := by
  obtain ⟨hi, rfl⟩ := List.getElem?_eq_some_iff.mp h
  rw [List.flatMap_def, List.flatMap_def, List.map_set, e,
    ← List.getElem_map f (h := by rw [List.length_map]; exact hi), List.set_getElem_self]

theorem filterMap_cons_toList (f : α → Option β) (x : α) (xs : List α) :
    (x :: xs).filterMap f = (f x).toList ++ xs.filterMap f := by
  rw [List.filterMap_eq_flatMap_toList, List.flatMap_cons, ← List.filterMap_eq_flatMap_toList]

theorem filterMap_set {f : α → Option β} (h : xs[i]? = some x) (e : f y = f x) :
    (xs.set i y).filterMap f = xs.filterMap f := by
  rw [List.filterMap_eq_flatMap_toList, List.filterMap_eq_flatMap_toList]
  exact flatMap_set h (congrArg Option.toList e)

/-- What a list gives when one of its items is changed to give `more`. -/
theorem filterMap_set_perm (f : α → Option β) {more : List β} (h : xs[i]? = some x)
    (hy : (f y).toList = (f x).toList ++ more) :
    ((xs.set i y).filterMap f).Perm (xs.filterMap f ++ more) := by
  induction xs generalizing i with
  | nil => cases h
  | cons a xs ih =>
    cases i with
    | zero =>
      cases h
      rw [List.set_cons_zero, filterMap_cons_toList, filterMap_cons_toList, hy, List.append_assoc,
        List.append_assoc]
      exact List.perm_append_comm.append_left _
    | succ i =>
      rw [List.set_cons_succ, filterMap_cons_toList, filterMap_cons_toList, List.append_assoc]
      exact (ih h).append_left _

/-- One place gives all that a list gives, if the other places give nothing. -/
theorem flatMap_eq_of_alone {f : α → List β} (h : xs[i]? = some x)
    (ho : ∀ j y, j ≠ i → xs[j]? = some y → f y = []) : xs.flatMap f = f x := by
  induction xs generalizing i with
  | nil => cases h
  | cons y ys ih =>
    rw [List.flatMap_cons]
    cases i with
    | zero =>
      obtain rfl := Option.some.inj h
      have hys : ys.flatMap f = [] := List.flatMap_eq_nil_iff.mpr fun z hz => by
        obtain ⟨j, hj⟩ := List.mem_iff_getElem?.mp hz
        exact ho (j + 1) z (Nat.succ_ne_zero j) hj
      rw [hys, List.append_nil]
    | succ i =>
      rw [ho 0 y (Nat.succ_ne_zero i).symm rfl, List.nil_append]
      exact ih h fun j z hj hz => ho (j + 1) z (fun e => hj (Nat.succ.inj e)) hz

theorem filterMap_range_getElem? (f : α → Option β) (xs : List α) :
    (List.range xs.length).filterMap (fun i => xs[i]?.bind f) = xs.filterMap f := by
  induction xs using List.reverseRecOn with
  | nil => rfl
  | append_singleton xs x ih =>
    have hold : (List.range xs.length).filterMap (fun i => (xs ++ [x])[i]?.bind f) =
        (List.range xs.length).filterMap (fun i => xs[i]?.bind f) :=
      List.filterMap_congr fun i hi => by
        rw [List.getElem?_append_left (List.mem_range.mp hi)]
    rw [List.length_append, List.length_singleton, List.range_succ, List.filterMap_append, hold, ih,
      List.filterMap_append]
    simp only [List.filterMap_cons, List.getElem?_concat_length, Option.bind_some,
      List.filterMap_nil]

/-- The places that give something, each once and in any order, give what the list gives. -/
theorem filterMap_perm {places : List Nat} {f : α → Option β} (hn : places.Nodup)
    (hm : ∀ i, i ∈ places ↔ (xs[i]?.bind f).isSome) :
    (places.filterMap fun i => xs[i]?.bind f).Perm (xs.filterMap f) := by
  have hp : places.Perm ((List.range xs.length).filter fun i => (xs[i]?.bind f).isSome) := by
    refine (List.perm_ext_iff_of_nodup hn (List.nodup_range.filter _)).mpr fun i => ?_
    rw [hm, List.mem_filter, List.mem_range]
    refine ⟨fun hi => ⟨?_, hi⟩, fun hi => hi.2⟩
    by_contra hlt
    rw [List.getElem?_eq_none (Nat.le_of_not_lt hlt)] at hi
    cases hi
  have he : ((List.range xs.length).filter fun i => (xs[i]?.bind f).isSome).filterMap
      (fun i => xs[i]?.bind f) = xs.filterMap f := by
    rw [List.filterMap_filter, ← filterMap_range_getElem? f xs]
    refine List.filterMap_congr fun i _ => ?_
    cases hr : xs[i]?.bind f <;> rfl
  exact he ▸ hp.filterMap fun i => xs[i]?.bind f

end MetricsQuery.Places
