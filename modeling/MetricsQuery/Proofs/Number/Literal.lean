import MetricsQuery.Number.Literal
import MetricsQuery.Proofs.Text.Trim

/-!
# Decimals

Digits and points are read as a number exactly if they are a decimal, that is, if there is a digit
among them and not more than one point (`ofText?_cases`). Such a number has no sign, and its
products with others of the kind have none either (`Unsigned`).
-/

namespace MetricsQuery.Binary64

/-- Digits, of which there is one at least, with at most one point among them. -/
structure IsDecimal (cs : List Char) : Prop where
  chars : ∀ c ∈ cs, c.isDigit = true ∨ c = '.'
  points : cs.count '.' ≤ 1
  digit : ∃ c ∈ cs, c.isDigit = true

variable {cs whole fraction rest : List Char}

theorem count_point_of_digits (h : ∀ c ∈ cs, c.isDigit = true) : cs.count '.' = 0 :=
  List.count_eq_zero.mpr fun hp => absurd (h _ hp) (by decide)

/-- Digits alone are a decimal if there is one. -/
theorem isDecimal_whole (h : ∀ c ∈ whole, c.isDigit = true) : IsDecimal whole ↔ whole ≠ [] := by
  constructor
  · rintro ⟨-, -, c, hc, -⟩
    exact List.ne_nil_of_mem hc
  · intro hne
    obtain ⟨c, cs, rfl⟩ := List.exists_cons_of_ne_nil hne
    exact ⟨fun c hc => .inl (h c hc), (count_point_of_digits h).trans_le (Nat.zero_le 1), c,
      List.mem_cons_self, h c List.mem_cons_self⟩

/-- Digits, a point and digits are a decimal if there is a digit on one side of the point. -/
theorem isDecimal_point (hw : ∀ c ∈ whole, c.isDigit = true)
    (hf : ∀ c ∈ fraction, c.isDigit = true) :
    IsDecimal (whole ++ '.' :: fraction) ↔ ¬ (whole = [] ∧ fraction = []) := by
  constructor
  · rintro ⟨-, -, c, hc, hdigit⟩ ⟨rfl, rfl⟩
    rw [List.nil_append, List.mem_singleton] at hc
    rw [hc] at hdigit
    exact absurd hdigit (by decide)
  · intro hne
    have hchars : ∀ c ∈ whole ++ '.' :: fraction, c.isDigit = true ∨ c = '.' := by
      intro c hc
      rcases List.mem_append.mp hc with hc | hc
      · exact .inl (hw c hc)
      rcases List.mem_cons.mp hc with hc | hc
      · exact .inr hc
      · exact .inl (hf c hc)
    have hpoints : (whole ++ '.' :: fraction).count '.' ≤ 1 := by
      rw [List.count_append, List.count_cons_self, count_point_of_digits hw,
        count_point_of_digits hf]
    refine ⟨hchars, hpoints, ?_⟩
    cases whole with
    | cons c cs => exact ⟨c, List.mem_append_left _ List.mem_cons_self, hw c List.mem_cons_self⟩
    | nil =>
      cases fraction with
      | cons c cs =>
        exact ⟨c, List.mem_append_right _ (List.mem_cons_of_mem _ List.mem_cons_self),
          hf c List.mem_cons_self⟩
      | nil => exact absurd ⟨rfl, rfl⟩ hne

/-- Two points are too many. -/
theorem not_isDecimal_points : ¬ IsDecimal (whole ++ '.' :: (fraction ++ '.' :: rest)) := by
  intro h
  have hpoints := h.points
  rw [List.count_append, List.count_cons_self, List.count_append, List.count_cons_self] at hpoints
  omega

/-- Digits and points are digits alone, or stand around one point, or around more. -/
theorem decimal_cases (h : ∀ c ∈ cs, c.isDigit = true ∨ c = '.') :
    (∀ c ∈ cs, c.isDigit = true) ∨
    (∃ whole fraction, (∀ c ∈ whole, c.isDigit = true) ∧ (∀ c ∈ fraction, c.isDigit = true) ∧
      cs = whole ++ '.' :: fraction) ∨
    ∃ whole fraction rest, (∀ c ∈ whole, c.isDigit = true) ∧ (∀ c ∈ fraction, c.isDigit = true) ∧
      cs = whole ++ '.' :: (fraction ++ '.' :: rest) := by
  -- After the digits at the front there is nothing or a point.
  have hsplit : ∀ cs : List Char, (∀ c ∈ cs, c.isDigit = true ∨ c = '.') →
      ∃ ds, (∀ c ∈ ds, c.isDigit = true) ∧ (cs = ds ∨ ∃ r, cs = ds ++ '.' :: r) := by
    intro cs h
    obtain ⟨happend, hdigits, hstop⟩ := Text.runs_split Char.isDigit cs
    refine ⟨_, hdigits, ?_⟩
    cases hrest : cs.dropWhile Char.isDigit with
    | nil =>
      rw [hrest, List.append_nil] at happend
      exact .inl happend
    | cons c r =>
      rw [hrest] at happend hstop
      have hmem : c ∈ cs := by
        rw [happend]
        exact List.mem_append_right _ List.mem_cons_self
      rcases h c hmem with hc | rfl
      · exact absurd hc (by rw [hstop c rfl]; decide)
      · exact .inr ⟨r, happend⟩
  obtain ⟨whole, hw, rfl | ⟨tail, rfl⟩⟩ := hsplit cs h
  · exact .inl hw
  obtain ⟨fraction, hf, rfl | ⟨rest, rfl⟩⟩ := hsplit tail fun c hc =>
    h c (List.mem_append_right _ (List.mem_cons_of_mem _ hc))
  · exact .inr (.inl ⟨whole, tail, hw, hf, rfl⟩)
  · exact .inr (.inr ⟨whole, fraction, rest, hw, hf, rfl⟩)

/-! ## Reading -/

theorem splitMantissa_whole (hw : ∀ c ∈ whole, c.isDigit = true) :
    splitMantissa whole = (whole, [], []) := by
  have hruns : Text.Runs Char.isDigit whole whole [] := ⟨(List.append_nil _).symm, hw, nofun⟩
  obtain ⟨htake, hdrop⟩ := Text.runs_iff.mp hruns
  rw [splitMantissa, ← htake, ← hdrop]

theorem splitMantissa_point (hw : ∀ c ∈ whole, c.isDigit = true)
    (hf : ∀ c ∈ fraction, c.isDigit = true) (rest : List Char) (hr : ∀ c, rest.head? = some c → c.isDigit = false) :
    splitMantissa (whole ++ '.' :: (fraction ++ rest)) = (whole, fraction, rest) := by
  have hpoint : ∀ c, ('.' :: (fraction ++ rest)).head? = some c → c.isDigit = false := by
    rintro c ⟨⟩
    rfl
  obtain ⟨htake, hdrop⟩ := Text.runs_iff.mp ⟨rfl, hw, hpoint⟩
  obtain ⟨htake', hdrop'⟩ := Text.runs_iff.mp ⟨rfl, hf, hr⟩
  rw [splitMantissa, ← htake, ← hdrop]
  simp only
  rw [← htake', ← hdrop']

/-- Digits with nothing after them are a number. -/
theorem unsigned?_digits {b : Bool} (hs : splitMantissa cs = (whole, fraction, []))
    (hne : ¬ (whole = [] ∧ fraction = [])) :
    unsigned? b cs = some (ofDecimal b (digitsValue (whole ++ fraction)) (-fraction.length)) := by
  simp only [unsigned?, hs, if_neg hne]

/-- Without digits a number has a name, which does not start with a point. -/
theorem unsigned?_bare {b : Bool} (hs : splitMantissa cs = ([], [], rest))
    (hc : ∀ c, cs.head? = some c → c = '.') : unsigned? b cs = none := by
  have hname : ∀ name : String, name.toList ≠ [] → name.toList.head? ≠ some '.' →
      String.ofList (cs.map Char.toLower) ≠ name := by
    rintro name hnil hpoint rfl
    rw [String.toList_ofList] at hnil hpoint
    cases cs with
    | nil => exact hnil rfl
    | cons c cs => exact hpoint (by rw [hc c rfl]; rfl)
  simp only [unsigned?, hs, and_self, if_true]
  split
  · next h => exact absurd h (hname "inf" (by decide) (by decide))
  · next h => exact absurd h (hname "infinity" (by decide) (by decide))
  · next h => exact absurd h (hname "nan" (by decide) (by decide))
  · rfl

/-- No number has two points. -/
theorem unsigned?_points {b : Bool} (hw : ∀ c ∈ whole, c.isDigit = true)
    (hf : ∀ c ∈ fraction, c.isDigit = true) :
    unsigned? b (whole ++ '.' :: (fraction ++ '.' :: rest)) = none := by
  have hs := splitMantissa_point hw hf ('.' :: rest) (by rintro c ⟨⟩; rfl)
  by_cases hne : whole = [] ∧ fraction = []
  · obtain ⟨rfl, rfl⟩ := hne
    exact unsigned?_bare hs (by rintro c ⟨⟩; rfl)
  · simp only [unsigned?, hs, if_neg hne]
    rfl

theorem unsigned?_cases (b : Bool) (h : ∀ c ∈ cs, c.isDigit = true ∨ c = '.') :
    (IsDecimal cs ∧ ∃ digits exponent, unsigned? b cs = some (ofDecimal b digits exponent)) ∨
      (¬ IsDecimal cs ∧ unsigned? b cs = none) := by
  rcases decimal_cases h with hw | ⟨whole, fraction, hw, hf, rfl⟩ |
    ⟨whole, fraction, rest, hw, hf, rfl⟩
  · have hs := splitMantissa_whole hw
    rw [isDecimal_whole hw]
    by_cases hne : cs = []
    · subst hne
      exact .inr ⟨not_not_intro rfl, unsigned?_bare hs nofun⟩
    · exact .inl ⟨hne, _, _, unsigned?_digits hs fun hn => hne hn.1⟩
  · have hs := splitMantissa_point hw hf [] nofun
    rw [List.append_nil] at hs
    rw [isDecimal_point hw hf]
    by_cases hne : whole = [] ∧ fraction = []
    · obtain ⟨rfl, rfl⟩ := hne
      exact .inr ⟨not_not_intro ⟨rfl, rfl⟩, unsigned?_bare hs (by rintro c ⟨⟩; rfl)⟩
    · exact .inl ⟨hne, _, _, unsigned?_digits hs hne⟩
  · exact .inr ⟨not_isDecimal_points, unsigned?_points hw hf⟩

/-! ## Signs -/

/-- A number that has no sign of its own. -/
inductive Unsigned : Binary64 → Prop
  | nan : Unsigned .nan
  | infinite : Unsigned (.infinite false)
  | finite (units : Nat) : Unsigned (.finite false units)

theorem unsigned_ofUnits (num den : Nat) : Unsigned (ofUnits false num den) := by
  rw [ofUnits]
  split
  · exact .finite _
  · exact .infinite

theorem unsigned_ofRatio (num den : Nat) : Unsigned (ofRatio false num den) :=
  unsigned_ofUnits _ _

theorem unsigned_ofDecimal (digits : Nat) (exponent : Int) :
    Unsigned (ofDecimal false digits exponent) := by
  rw [ofDecimal]
  split
  · exact .finite 0
  split
  · exact .infinite
  split
  · exact .finite 0
  split <;> exact unsigned_ofRatio _ _

theorem Unsigned.mul {x y : Binary64} (hx : Unsigned x) (hy : Unsigned y) :
    Unsigned (x.mul y) := by
  cases hx with
  | nan => exact .nan
  | infinite =>
    cases hy with
    | nan => exact .nan
    | infinite => exact .infinite
    | finite u =>
      simp only [Binary64.mul]
      split
      · exact .nan
      · exact .infinite
  | finite u =>
    cases hy with
    | nan => exact .nan
    | infinite =>
      simp only [Binary64.mul]
      split
      · exact .nan
      · exact .infinite
    | finite v => exact unsigned_ofUnits _ _

/-- Digits and points are read as a number exactly if they are a decimal, and as one without a
sign. -/
theorem ofText?_cases (h : ∀ c ∈ cs, c.isDigit = true ∨ c = '.') :
    (IsDecimal cs ∧ ∃ x, ofText? (String.ofList cs) = some x ∧ Unsigned x) ∨
      (¬ IsDecimal cs ∧ ofText? (String.ofList cs) = none) := by
  have hsign : ofText? (String.ofList cs) = unsigned? false cs := by
    simp only [ofText?, String.toList_ofList]
    split
    · next r => exact absurd (h '-' List.mem_cons_self) (by decide)
    · next r => exact absurd (h '+' List.mem_cons_self) (by decide)
    · rfl
  rw [hsign]
  rcases unsigned?_cases false h with ⟨hd, digits, exponent, hx⟩ | hn
  · exact .inl ⟨hd, _, hx, unsigned_ofDecimal digits exponent⟩
  · exact .inr hn

end MetricsQuery.Binary64
