import MetricsQuery.Json.Printer
import MetricsQuery.Proofs.Entries
import MetricsQuery.Proofs.Json.Grammar

/-!
# What is printed is JSON

A value prints (`Prints`) if its text over several lines is one in the grammar, at whatever level.
Strings do, and arrays and objects do if what they contain does (`prints_array`, `prints_object`). A
finite number does whatever its digits are, as the shape of its text is that of a number
(`isNumber_scientific`). The text of a value that prints is a document (`Prints.isDocument`).
-/

namespace MetricsQuery

namespace Json

/-! ## Numbers -/

theorem isDigit_toDigits (n : Nat) : ∀ d ∈ Nat.toDigits 10 n, d.isDigit = true := fun _ hd =>
  Nat.isDigit_of_mem_toDigits (by decide) (by decide) hd

/-- The digits of a number have no leading zero. -/
theorem head?_toDigits {n : Nat} (hn : n ≠ 0) : (Nat.toDigits 10 n).head? ≠ some '0' := by
  induction n using Nat.strongRecOn with
  | ind n ih =>
    by_cases hlt : n < 10
    · rw [Nat.toDigits_of_lt_base hlt]
      exact (by decide : ∀ m < 10, m ≠ 0 → [Nat.digitChar m].head? ≠ some '0') n hlt hn
    · rw [Nat.toDigits_of_base_le (by decide) (by omega),
        List.head?_append_of_ne_nil _ Nat.toDigits_ne_nil]
      exact ih (n / 10) (by omega) (by omega)

/-- Neither have the first of them. -/
theorem isInteger_take (n : Nat) {k : Nat} (hk : 0 < k) :
    IsInteger ((Nat.toDigits 10 n).take k) := by
  obtain ⟨k, rfl⟩ := Nat.exists_eq_succ_of_ne_zero (Nat.ne_of_gt hk)
  have hdigits := isDigit_toDigits n
  by_cases hn : n = 0
  · subst hn
    rw [Nat.toDigits_zero, List.take_succ_cons, List.take_nil]
    exact .zero
  have hhead := head?_toDigits hn
  cases hds : Nat.toDigits 10 n with
  | nil => exact absurd hds Nat.toDigits_ne_nil
  | cons c cs =>
    rw [hds] at hdigits hhead
    refine .digits (fun hc => hhead (hc ▸ rfl)) fun d hd => hdigits d ?_
    exact List.cons_subset_cons _ (List.take_subset _ _) hd

/-- They have none either with zeros behind them. -/
theorem isInteger_append {n : Nat} (hn : n ≠ 0) (zeros : Nat) :
    IsInteger (Nat.toDigits 10 n ++ List.replicate zeros '0') := by
  have hdigits := isDigit_toDigits n
  have hhead := head?_toDigits hn
  cases hds : Nat.toDigits 10 n with
  | nil => exact absurd hds Nat.toDigits_ne_nil
  | cons c cs =>
    rw [hds] at hdigits hhead
    refine .digits (fun hc => hhead (hc ▸ rfl)) fun d (hd : d ∈ c :: cs ++ _) => ?_
    rw [List.mem_append, List.mem_replicate] at hd
    rcases hd with hd | ⟨-, rfl⟩
    · exact hdigits d hd
    · decide

theorem isExponent_toString (e : Int) : IsExponent ('e' :: (toString e).toList) := by
  rw [Int.toString_eq_repr, Int.repr_eq_if]
  split
  · rw [Nat.toList_repr]
    exact .digits (.inl rfl) (.inl rfl) Nat.toDigits_ne_nil (isDigit_toDigits _)
  · rw [String.toList_append, Nat.toList_repr]
    exact .digits (.inl rfl) (.inr (.inr rfl)) Nat.toDigits_ne_nil (isDigit_toDigits _)

/-- A decimal in positional notation is an integer and a fraction, which it only has below the
point. -/
theorem plain_cases (d : Binary64.Decimal) : ∃ integer fraction,
    d.plain.toList = integer ++ fraction ∧ IsInteger integer ∧ IsFraction fraction ∧
      (0 ≤ d.exponent → fraction = []) := by
  have hdigits := isDigit_toDigits d.digits
  have hne : Nat.toDigits 10 d.digits ≠ [] := Nat.toDigits_ne_nil
  have hlength := List.length_pos_iff.mpr hne
  unfold Binary64.Decimal.plain
  generalize hpointed : d.pointed = pointed
  obtain ⟨ds, point⟩ := pointed
  obtain ⟨rfl, hpoint⟩ := Prod.mk.inj hpointed
  dsimp only
  split
  · exact ⟨['0'], [], rfl, .zero, .none, fun _ => rfl⟩
  next hzero =>
  split
  · next hsmall =>
    have hfraction : IsFraction
        ('.' :: (List.replicate (-point).toNat '0' ++ Nat.toDigits 10 d.digits)) := by
      refine .digits (List.append_ne_nil_of_right_ne_nil _ hne) fun c hc => ?_
      rw [List.mem_append, List.mem_replicate] at hc
      rcases hc with ⟨-, rfl⟩ | hc
      · decide
      · exact hdigits c hc
    refine ⟨['0'], _, ?_, .zero, hfraction, fun he => by omega⟩
    rw [String.toList_ofList, List.append_assoc]
    rfl
  next hlarge =>
  split
  · next hle =>
    rw [String.toList_ofList]
    exact ⟨_, [], (List.append_nil _).symm, isInteger_append hzero _, .none, fun _ => rfl⟩
  · next hlt =>
    rw [String.toList_ofList]
    refine ⟨_, _, rfl, isInteger_take d.digits (by omega), .digits ?_ fun c hc =>
      hdigits c (List.drop_subset _ _ hc), fun he => by omega⟩
    rw [ne_eq, List.drop_eq_nil_iff]
    omega

/-- The digits behind the first one, with the point before them, are a fraction if there are any. -/
theorem isFraction_drop (n : Nat) :
    IsFraction (if (Nat.toDigits 10 n).length = 1 then ""
      else "." ++ String.ofList ((Nat.toDigits 10 n).drop 1)).toList := by
  split
  · exact .none
  · next hlength =>
    have hpos := List.length_pos_iff.mpr (Nat.toDigits_ne_nil (b := 10) (n := n))
    have hrest : (Nat.toDigits 10 n).drop 1 ≠ [] := by
      rw [ne_eq, List.drop_eq_nil_iff]
      omega
    simp only [String.toList_append, String.toList_ofList]
    exact .digits hrest fun c hc => isDigit_toDigits n c (List.drop_subset _ _ hc)

/-- The text of a finite number is one of JSON. -/
theorem isNumber_scientific (negative : Bool) (u : Nat) :
    IsNumber (Binary64.scientific (.finite negative u)).toList := by
  have hshown : IsFraction ['.', '0'] :=
    .digits (List.cons_ne_nil '0' []) (List.forall_mem_singleton.mpr rfl)
  unfold Binary64.scientific
  dsimp only
  generalize Binary64.shortest u = d
  generalize hpointed : d.pointed = pointed
  obtain ⟨ds, point⟩ := pointed
  obtain ⟨rfl, -⟩ := Prod.mk.inj hpointed
  dsimp only
  have hsign : (if negative then "-" else "").toList = [] ∨
      (if negative then "-" else "").toList = ['-'] := by
    cases negative
    · exact .inl rfl
    · exact .inr rfl
  generalize (if negative then "-" else "") = sign at hsign ⊢
  split
  · have hzero := IsNumber.mk hsign .zero hshown .none
    rw [List.append_nil, List.append_assoc] at hzero
    rw [String.toList_append]
    exact hzero
  split
  · obtain ⟨integer, fraction, hplain, hinteger, hfraction, hnone⟩ := plain_cases d
    split
    · next he =>
      have hnumber := IsNumber.mk hsign hinteger hshown .none
      rw [hnone he, List.append_nil] at hplain
      rw [List.append_nil, List.append_assoc, ← hplain] at hnumber
      rw [String.toList_append, String.toList_append]
      exact hnumber
    · have hnumber := IsNumber.mk hsign hinteger hfraction .none
      rw [List.append_nil, List.append_assoc, ← hplain] at hnumber
      rwa [String.toList_append]
  · have hnumber := IsNumber.mk hsign (isInteger_take d.digits Nat.one_pos)
      (isFraction_drop d.digits) (isExponent_toString (point - 1))
    simp only [String.toList_append, String.toList_ofList]
    rw [List.append_assoc _ "e".toList]
    exact hnumber

/-! ## Strings -/

/-- A character is written as something that may stand for it. -/
theorem isPiece_escapeChar (c : Char) : IsPiece c (escapeChar c) := by
  have hletter : ∀ d l, c = d → (d, l) ∈ letterEscapes → IsPiece c ['\\', l] :=
    fun d l h hmem => .letter (h ▸ hmem)
  unfold escapeChar
  split
  · next h => exact hletter _ _ h (by decide)
  next hquote =>
  split
  · next h => exact hletter _ _ h (by decide)
  next hslash =>
  split
  · next h => exact hletter _ _ h (by decide)
  split
  · next h => exact hletter _ _ h (by decide)
  split
  · next h => exact hletter _ _ h (by decide)
  split
  · next h => exact hletter _ _ h (by decide)
  split
  · next h => exact hletter _ _ h (by decide)
  split
  · next hcontrol =>
    have hhigh : c.toNat / 4096 = 0 ∧ c.toNat / 256 % 16 = 0 ∧
        c.toNat / 16 % 16 = c.toNat / 16 := by omega
    refine .code ?_
    rw [IsHex, hhigh.1, hhigh.2.1, hhigh.2.2]
    exact .cons ⟨by omega, .inl rfl⟩ (.cons ⟨by omega, .inl rfl⟩
      (.cons ⟨by omega, .inl rfl⟩ (.cons ⟨by omega, .inl rfl⟩ .nil)))
  · next hlow => exact .plain (Nat.le_of_not_lt hlow) hquote hslash

theorem isString_quote (s : String) : IsString s (quote s).toList := by
  rw [quote, String.toList_ofList, List.flatMap_def]
  refine .mk ?_
  induction s.toList with
  | nil => exact .nil
  | cons c cs ih => exact .cons (isPiece_escapeChar c) ih

/-! ## Values -/

namespace Value

/-- The value is printed as JSON, at any level. -/
def Prints (v : Value) : Prop := ∀ level, Spells v (v.prettyAt level).toList

theorem prettyItems_eq (level : Nat) (vs : List Value) :
    prettyItems level vs = vs.map (prettyAt level) := by
  induction vs with
  | nil => rfl
  | cons v vs ih => rw [prettyItems, ih, List.map_cons]

theorem prettyMembers_eq (level : Nat) (ms : List (String × Value)) :
    prettyMembers level ms = ms.map fun m => quote m.1 ++ ": " ++ m.2.prettyAt level := by
  induction ms with
  | nil => rfl
  | cons m ms ih => rw [prettyMembers, ih, List.map_cons]

theorem isBlank_indent (level : Nat) : IsBlank (indent level).toList := by
  intro c hc
  rw [indent, String.toList_ofList] at hc
  exact .inl (List.mem_replicate.mp hc).2

theorem isBlank_line (level : Nat) : IsBlank ('\n' :: (indent level).toList) :=
  List.forall_mem_cons.mpr ⟨.inr (.inr (.inl rfl)), isBlank_indent level⟩

/-- What stands between the brackets of a block are its items. -/
theorem separated_block {α : Type} {P : α → List Char → Prop} {items : List α} {f : α → String}
    (h : ∀ a ∈ items, P a (f a).toList) (opening closing : Char) (level : Nat) :
    ∃ inner, (block (String.singleton opening) (String.singleton closing) level
      (items.map f)).toList = opening :: inner ++ [closing] ∧ Separated P items inner := by
  cases items with
  | nil => exact ⟨[], by simp [block], .none isBlank_nil⟩
  | cons a items =>
    refine ⟨'\n' :: (String.intercalate ",\n"
      (((a :: items).map f).map (indent (level + 1) ++ ·)) ++ "\n" ++ indent level).toList,
      by simp [block], ?_⟩
    -- The line end of each separator goes with the item behind it.
    induction items generalizing a with
    | nil =>
      have hone := Separated.last (isBlank_line (level + 1)) (h a List.mem_cons_self)
        (isBlank_line level)
      simpa using hone
    | cons b items ih =>
      obtain ⟨ha, hrest⟩ := List.forall_mem_cons.mp h
      have hmore := Separated.cons (isBlank_line (level + 1)) ha
        isBlank_nil (ih b hrest)
      simpa using hmore

theorem prints_null : null.Prints := fun _ => .null

theorem prints_string (s : String) : (string s).Prints := fun _ => .string (isString_quote s)

theorem prints_array {vs : List Value} (h : ∀ v ∈ vs, v.Prints) : (array vs).Prints := by
  intro level
  obtain ⟨inner, htext, hinner⟩ := separated_block (f := prettyAt (level + 1))
    (fun v hv => h v hv (level + 1)) '[' ']' level
  rw [prettyAt, prettyItems_eq]
  exact htext ▸ .array hinner

theorem prints_object {ms : List (String × Value)} (h : ∀ m ∈ ms, m.2.Prints) :
    (object ms).Prints := by
  intro level
  have hmember : ∀ m ∈ ms, IsMember Spells m
      (quote m.1 ++ ": " ++ m.2.prettyAt (level + 1)).toList := by
    intro m hm
    have hblank : IsBlank [' '] := List.forall_mem_singleton.mpr (.inl rfl)
    have hspelled := IsMember.mk (isString_quote m.1) isBlank_nil hblank (h m hm (level + 1))
    simpa using hspelled
  obtain ⟨inner, htext, hinner⟩ := separated_block hmember '\x7b' '\x7d' level
  rw [prettyAt, prettyMembers_eq]
  exact htext ▸ .object hinner

theorem prints_ofMembers {ms : List (String × Value)} (h : ∀ m ∈ ms, m.2.Prints) :
    (ofMembers ms).Prints := by
  refine prints_object fun m hm => h m ?_
  exact List.mem_reverse.mp (Entries.mem_of_lookup (Entries.mem_ofList.mp hm))

/-- What is printed of a value is a document of it, with the line end behind it. -/
theorem Prints.isDocument {v : Value} (h : v.Prints) : IsDocument v (v.pretty ++ "\n") := by
  refine .mk String.toList_append isBlank_nil (h 0) ?_
  exact List.forall_mem_singleton.mpr (.inr (.inr (.inl rfl)))

end Value

end Json

end MetricsQuery
