import MetricsQuery.Json.Value
import Mathlib.Data.List.Forall2

/-!
# The grammar of JSON

`Spells v cs` says that the characters `cs` are the value `v` in the grammar of JSON, with blanks
wherever it allows them, and `IsDocument v s` that the whole of a text is one value. A number only
has to be one of the grammar: which number it is read as is left open. A document starts with a
blank, a digit or one of a few other characters (`IsDocument.head`).
-/

namespace MetricsQuery.Json

/-! ## Blanks and lists -/

/-- The characters may stand between any two parts of a document. -/
def IsBlank (cs : List Char) : Prop := ∀ c ∈ cs, c = ' ' ∨ c = '\t' ∨ c = '\n' ∨ c = '\r'

theorem isBlank_nil : IsBlank [] := fun _ hc => absurd hc List.not_mem_nil

/-- The items of a list with a comma between any two of them, and blanks around each; blanks if
there is none. -/
inductive Separated {α : Type} (P : α → List Char → Prop) : List α → List Char → Prop
  | none {blank : List Char} (h : IsBlank blank) : Separated P [] blank
  | last {a : α} {before cs after : List Char} (hbefore : IsBlank before) (h : P a cs)
    (hafter : IsBlank after) : Separated P [a] (before ++ cs ++ after)
  | cons {a b : α} {as : List α} {before cs after rest : List Char} (hbefore : IsBlank before)
    (h : P a cs) (hafter : IsBlank after) (hrest : Separated P (b :: as) rest) :
    Separated P (a :: b :: as) (before ++ cs ++ after ++ ',' :: rest)

/-! ## Numbers -/

/-- Digits without a leading zero. -/
inductive IsInteger : List Char → Prop
  | zero : IsInteger ['0']
  | digits {c : Char} {cs : List Char} (hc : c ≠ '0') (hd : ∀ d ∈ c :: cs, d.isDigit = true) :
    IsInteger (c :: cs)

/-- A point and the digits after it, or nothing. -/
inductive IsFraction : List Char → Prop
  | none : IsFraction []
  | digits {ds : List Char} (hne : ds ≠ []) (hd : ∀ d ∈ ds, d.isDigit = true) :
    IsFraction ('.' :: ds)

/-- The letter of an exponent, a sign or none, and digits; or nothing. -/
inductive IsExponent : List Char → Prop
  | none : IsExponent []
  | digits {letter : Char} {sign ds : List Char} (hletter : letter = 'e' ∨ letter = 'E')
    (hsign : sign = [] ∨ sign = ['+'] ∨ sign = ['-']) (hne : ds ≠ [])
    (hd : ∀ d ∈ ds, d.isDigit = true) : IsExponent (letter :: sign ++ ds)

inductive IsNumber : List Char → Prop
  | mk {sign integer fraction exponent : List Char} (hsign : sign = [] ∨ sign = ['-'])
    (hinteger : IsInteger integer) (hfraction : IsFraction fraction)
    (hexponent : IsExponent exponent) : IsNumber (sign ++ integer ++ fraction ++ exponent)

/-! ## Strings -/

/-- The characters that have an escape of one letter, with this letter. -/
def letterEscapes : List (Char × Char) :=
  [('"', '"'), ('\\', '\\'), ('/', '/'), ('\x08', 'b'), ('\x0c', 'f'), ('\n', 'n'), ('\r', 'r'),
    ('\t', 't')]

/-- Four hexadecimal digits, each in either case, that write a number. -/
def IsHex (n : Nat) (ds : List Char) : Prop :=
  List.Forall₂ (fun v d => v < 16 ∧ (d = Nat.digitChar v ∨ d = (Nat.digitChar v).toUpper))
    [n / 4096, n / 256 % 16, n / 16 % 16, n % 16] ds

/-- What may stand for a character between the quotes of a string. -/
inductive IsPiece (c : Char) : List Char → Prop
  | plain (hlow : 0x20 ≤ c.toNat) (hquote : c ≠ '"') (hslash : c ≠ '\\') : IsPiece c [c]
  | letter {l : Char} (h : (c, l) ∈ letterEscapes) : IsPiece c ['\\', l]
  | code {ds : List Char} (h : IsHex c.toNat ds) : IsPiece c ('\\' :: 'u' :: ds)
  | pair {high low : Nat} {ds es : List Char} (hhigh : high < 0x400) (hlow : low < 0x400)
    (hc : c.toNat = 0x10000 + high * 0x400 + low) (hds : IsHex (0xD800 + high) ds)
    (hes : IsHex (0xDC00 + low) es) : IsPiece c ('\\' :: 'u' :: ds ++ '\\' :: 'u' :: es)

inductive IsString (s : String) : List Char → Prop
  | mk {pieces : List (List Char)} (h : List.Forall₂ IsPiece s.toList pieces) :
    IsString s ('"' :: pieces.flatten ++ ['"'])

/-! ## Values -/

/-- A name, a colon and what the name is for. -/
inductive IsMember (P : Value → List Char → Prop) : String × Value → List Char → Prop
  | mk {k : String} {v : Value} {name before after cs : List Char} (hname : IsString k name)
    (hbefore : IsBlank before) (hafter : IsBlank after) (h : P v cs) :
    IsMember P (k, v) (name ++ before ++ ':' :: after ++ cs)

/-- The characters are the value, without blanks around it. -/
inductive Spells : Value → List Char → Prop
  | null : Spells .null "null".toList
  | false : Spells (.bool false) "false".toList
  | true : Spells (.bool true) "true".toList
  | number {n : Number} {cs : List Char} (h : IsNumber cs) : Spells (.number n) cs
  | string {s : String} {cs : List Char} (h : IsString s cs) : Spells (.string s) cs
  | array {vs : List Value} {cs : List Char} (h : Separated Spells vs cs) :
    Spells (.array vs) ('[' :: cs ++ [']'])
  | object {ms : List (String × Value)} {cs : List Char} (h : Separated (IsMember Spells) ms cs) :
    Spells (.object ms) ('\x7b' :: cs ++ ['\x7d'])

/-- The whole of the text is the value, with blanks around it. -/
inductive IsDocument (v : Value) (s : String) : Prop
  | mk {before cs after : List Char} (htext : s.toList = before ++ cs ++ after)
    (hbefore : IsBlank before) (h : Spells v cs) (hafter : IsBlank after)

/-- A character that a value may start with. -/
def IsOpening (c : Char) : Prop := c.isDigit = true ∨ c ∈ ['n', 'f', 't', '-', '"', '[', '\x7b']

theorem IsNumber.head {cs : List Char} (h : IsNumber cs) :
    ∃ c rest, cs = c :: rest ∧ IsOpening c := by
  obtain ⟨rfl | rfl, hinteger, -, -⟩ := h
  · cases hinteger with
    | zero => exact ⟨_, _, rfl, .inl (by decide)⟩
    | digits _ hd => exact ⟨_, _, rfl, .inl (List.forall_mem_cons.mp hd).1⟩
  · exact ⟨_, _, rfl, .inr (by decide)⟩

theorem Spells.head {v : Value} {cs : List Char} (h : Spells v cs) :
    ∃ c rest, cs = c :: rest ∧ IsOpening c := by
  cases h with
  | null => exact ⟨_, _, rfl, .inr (by decide)⟩
  | false => exact ⟨_, _, rfl, .inr (by decide)⟩
  | true => exact ⟨_, _, rfl, .inr (by decide)⟩
  | number h => exact h.head
  | string h =>
    obtain ⟨-⟩ := h
    exact ⟨_, _, rfl, .inr (by decide)⟩
  | array => exact ⟨_, _, rfl, .inr (by decide)⟩
  | object => exact ⟨_, _, rfl, .inr (by decide)⟩

/-- A document starts with a blank or with its value. -/
theorem IsDocument.head {v : Value} {s : String} (h : IsDocument v s) :
    ∃ c rest, s.toList = c :: rest ∧ (IsBlank [c] ∨ IsOpening c) := by
  obtain @⟨before, cs, after, htext, hbefore, h, -⟩ := h
  cases before with
  | nil =>
    obtain ⟨c, rest, rfl, hc⟩ := h.head
    exact ⟨_, _, htext, .inr hc⟩
  | cons c before =>
    refine ⟨_, _, htext, .inl ?_⟩
    rw [IsBlank, List.forall_mem_singleton]
    exact hbefore c List.mem_cons_self

end MetricsQuery.Json
