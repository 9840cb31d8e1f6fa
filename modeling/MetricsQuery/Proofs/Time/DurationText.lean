import Mathlib.Algebra.GroupWithZero.Nat
import Mathlib.Data.List.Forall2
import MetricsQuery.Proofs.Number.Literal
import MetricsQuery.Proofs.Time.Duration
import MetricsQuery.Settings.Basic

/-!
# The grammar of durations

A duration is written as parts, each an amount and a unit. `Duration.Denotes` says which texts denote
which durations: blanks at the ends are passed over, an amount is a decimal, only the first one may
start with its point, and the duration is the sum of the parts. Main statement: durations are read by
that grammar, whose texts fall apart into parts in one way only, and every other text is refused
(`durationOf_denotes`).
-/

namespace MetricsQuery

namespace Duration

open Binary64 (IsDecimal Unsigned)

inductive TimeUnit where
  | millisecond
  | second
  | minute
  | hour
  deriving DecidableEq

namespace TimeUnit

def text : TimeUnit → List Char
  | millisecond => ['m', 's']
  | second => ['s']
  | minute => ['m']
  | hour => ['h']

/-- The number of seconds in the unit. -/
def length : TimeUnit → Binary64
  | millisecond => .ofRatio false 1 1000
  | second => .ofNat 1
  | minute => .ofNat 60
  | hour => .ofNat 3600

theorem unsigned_length (u : TimeUnit) : u.length.Unsigned := by
  cases u <;> simp only [length, Binary64.ofNat] <;> exact Binary64.unsigned_ofRatio _ _

theorem text_ne_nil (u : TimeUnit) : u.text ≠ [] := by
  cases u <;> exact List.cons_ne_nil _ _

theorem text_injective {u v : TimeUnit} (h : u.text = v.text) : u = v := by
  revert h
  cases u <;> cases v <;> decide

/-- A unit has neither digits nor points. -/
theorem not_isAmountChar (u : TimeUnit) : ∀ c ∈ u.text, isAmountChar c = false := by
  have hall : u.text.all (!isAmountChar ·) = true := by cases u <;> rfl
  simpa using hall

theorem not_isDigit (u : TimeUnit) {c : Char} (hc : c ∈ u.text) : c.isDigit = false := by
  have h := u.not_isAmountChar c hc
  rw [isAmountChar, Bool.or_eq_false_iff] at h
  exact h.1

/-- What follows an amount starts with its unit, which does not go on with the amount. -/
theorem head?_text_append (u : TimeUnit) (rest : List Char) {c : Char}
    (h : (u.text ++ rest).head? = some c) : isAmountChar c = false := by
  cases u <;> cases h <;> decide

end TimeUnit

theorem unitSeconds?_eq_some_iff {unit : List Char} {x : Binary64} :
    unitSeconds? unit = some x ↔ ∃ u : TimeUnit, u.text = unit ∧ u.length = x := by
  constructor
  · intro h
    unfold unitSeconds? at h
    split at h
    · next hu => exact ⟨.millisecond, hu.symm, Option.some.inj h⟩
    split at h
    · next hu => exact ⟨.second, hu.symm, Option.some.inj h⟩
    split at h
    · next hu => exact ⟨.minute, hu.symm, Option.some.inj h⟩
    split at h
    · next hu => exact ⟨.hour, hu.symm, Option.some.inj h⟩
    · cases h
  · rintro ⟨u, rfl, rfl⟩
    cases u <;> rfl

/-! ## Parts -/

/-- An amount of a unit. -/
structure Part where
  amount : List Char
  unit : TimeUnit

namespace Part

def text (p : Part) : List Char := p.amount ++ p.unit.text

/-- The part is one of the duration `d`: the number of its amount times the seconds of its unit is
finite, and these seconds are rounded to whole nanoseconds. -/
def Lasts (p : Part) (d : Duration) : Prop :=
  ∃ x u, Binary64.ofText? (String.ofList p.amount) = some x ∧
    x.mul p.unit.length = .finite false u ∧
    d.nanos = roundDiv (u * nanosPerSecond) Binary64.unitsPerOne

end Part

/-- Parts that make up a text. A point that an amount starts with would go to the unit before. -/
structure IsParts (ps : List Part) : Prop where
  amounts : ∀ p ∈ ps, IsDecimal p.amount
  later : ∀ p ∈ ps.tail, ∃ c, p.amount.head? = some c ∧ c.isDigit = true

/-- The durations that a text denotes. -/
inductive Denotes (text : String) (d : Duration) : Prop
  | nothing (ht : Text.IsTrimmed text.toList []) (hd : d = zero)
  | zero (ht : Text.IsTrimmed text.toList ['0']) (hd : d = zero)
  | parts {ps : List Part} {ds : List Duration} (hne : ps ≠ []) (hp : IsParts ps)
    (ht : Text.IsTrimmed text.toList (ps.flatMap Part.text)) (hl : List.Forall₂ Part.Lasts ps ds)
    (hd : d.nanos = (ds.map nanos).sum)

theorem isAmountChar_iff {c : Char} : isAmountChar c = true ↔ c.isDigit = true ∨ c = '.' := by
  rw [isAmountChar, Bool.or_eq_true, beq_iff_eq]

/-- Seconds without a sign are a duration unless they are no number or too many. -/
theorem ofSeconds?_eq_some_iff {x : Binary64} (hx : Unsigned x) {d : Duration} :
    ofSeconds? x = some d ↔
      ∃ u, x = .finite false u ∧ d.nanos = roundDiv (u * nanosPerSecond) Binary64.unitsPerOne := by
  cases hx with
  | finite u =>
    have h : ofSeconds? (.finite false u) =
        ofNanos? (roundDiv (u * nanosPerSecond) Binary64.unitsPerOne) := by
      rw [ofSeconds?, if_neg fun hn => Bool.false_ne_true hn.1]
    rw [h, ofNanos?_eq_some_iff]
    exact ⟨fun hd => ⟨u, rfl, hd⟩, fun ⟨v, hv, hd⟩ => by cases hv; exact hd⟩
  | _ => exact ⟨nofun, nofun⟩

/-- A part is read as the amount and the unit that it has. -/
theorem ofPart?_eq_some_iff {amount unit : List Char} (h : ∀ c ∈ amount, isAmountChar c = true)
    {d : Duration} : ofPart? amount unit = some d ↔
      ∃ u : TimeUnit, u.text = unit ∧ IsDecimal amount ∧ Part.Lasts ⟨amount, u⟩ d := by
  have hnumber := Binary64.ofText?_cases fun c hc => isAmountChar_iff.mp (h c hc)
  simp only [ofPart?, Option.bind_eq_bind, Option.bind_eq_some_iff, unitSeconds?_eq_some_iff]
  constructor
  · rintro ⟨_, ⟨u, hu, rfl⟩, y, hy, hd⟩
    rcases hnumber with ⟨hdecimal, x, hx, hsign⟩ | ⟨-, hn⟩
    · obtain rfl := Option.some.inj (hy.symm.trans hx)
      obtain ⟨v, hv, hnanos⟩ := (ofSeconds?_eq_some_iff (hsign.mul u.unsigned_length)).mp hd
      exact ⟨u, hu, hdecimal, y, v, hy, hv, hnanos⟩
    · rw [hn] at hy
      cases hy
  · rintro ⟨u, hu, -, x, v, hx, hv, hnanos⟩
    have hsign : Unsigned (x.mul u.length) := hv ▸ .finite v
    exact ⟨_, ⟨u, hu, rfl⟩, x, hx, (ofSeconds?_eq_some_iff hsign).mpr ⟨v, hv, hnanos⟩⟩

/-! ## Splitting -/

namespace IsParts

variable {p : Part} {ps : List Part}

theorem tail (h : IsParts (p :: ps)) : IsParts ps where
  amounts q hq := h.amounts q (List.mem_cons_of_mem _ hq)
  later q hq := h.later q (List.mem_of_mem_tail hq)

/-- After a part there is nothing, or a digit. -/
theorem head?_tail (h : IsParts (p :: ps)) {c : Char}
    (hc : (ps.flatMap Part.text).head? = some c) : c.isDigit = true := by
  cases ps with
  | nil => cases hc
  | cons q qs =>
    obtain ⟨d, hd, hdigit⟩ := h.later q List.mem_cons_self
    rw [List.flatMap_cons, Part.text, List.append_assoc, List.head?_append, hd] at hc
    exact Option.some.inj hc ▸ hdigit

theorem cons (hp : IsDecimal p.amount) (h : IsParts ps)
    (hc : ∀ c, (ps.flatMap Part.text).head? = some c → c.isDigit = true) : IsParts (p :: ps) where
  amounts := List.forall_mem_cons.mpr ⟨hp, h.amounts⟩
  later q hq := by
    cases ps with
    | nil => cases hq
    | cons r rs =>
      rcases List.mem_cons.mp hq with rfl | hq
      · obtain ⟨d, hd, -⟩ := (h.amounts q List.mem_cons_self).digit
        obtain ⟨e, es, he⟩ := List.exists_cons_of_ne_nil (List.ne_nil_of_mem hd)
        refine ⟨e, by rw [he]; rfl, hc e ?_⟩
        rw [List.flatMap_cons, Part.text, he]
        rfl
      · exact h.later q hq

end IsParts

theorem Part.text_ne_nil {p : Part} (hp : IsDecimal p.amount) : p.text ≠ [] := by
  obtain ⟨c, hc, -⟩ := hp.digit
  exact List.ne_nil_of_mem (List.mem_append_left _ hc)

/-- A part is split off in front of nothing or a digit. -/
theorem splitPart_text {p : Part} (hp : IsDecimal p.amount) {rest : List Char}
    (hrest : ∀ c, rest.head? = some c → c.isDigit = true) :
    splitPart (p.text ++ rest) = (p.amount, p.unit.text, rest) := by
  have hamount : Text.Runs isAmountChar (p.text ++ rest) p.amount (p.unit.text ++ rest) :=
    ⟨List.append_assoc .., fun c hc => isAmountChar_iff.mpr (hp.chars c hc), fun _ hc =>
      p.unit.head?_text_append rest hc⟩
  have hunit : Text.Runs (!·.isDigit) (p.unit.text ++ rest) p.unit.text rest :=
    ⟨rfl, fun c hc => by rw [p.unit.not_isDigit hc]; rfl, fun c hc => by rw [hrest c hc]; rfl⟩
  obtain ⟨htake, hdrop⟩ := Text.runs_iff.mp hamount
  obtain ⟨htake', hdrop'⟩ := Text.runs_iff.mp hunit
  simp only [splitPart]
  rw [← htake, ← hdrop, ← htake', ← hdrop']

/-- What is split off is digits and points, then other characters, up to nothing or a digit. -/
theorem splitPart_spec (cs : List Char) :
    cs = (splitPart cs).1 ++ (splitPart cs).2.1 ++ (splitPart cs).2.2 ∧
      (∀ c ∈ (splitPart cs).1, isAmountChar c = true) ∧
      ∀ c, (splitPart cs).2.2.head? = some c → c.isDigit = true := by
  obtain ⟨happend, hamount, -⟩ := Text.runs_split isAmountChar cs
  obtain ⟨happend', -, hstop⟩ := Text.runs_split (!·.isDigit) (cs.dropWhile isAmountChar)
  refine ⟨?_, hamount, fun c hc => (Bool.not_eq_false' _).mp (hstop c hc)⟩
  rw [List.append_assoc]
  exact happend.trans (congrArg _ happend')

/-- A text falls apart into parts in one way. -/
theorem IsParts.unique {ps qs : List Part} (hp : IsParts ps) (hq : IsParts qs)
    (h : ps.flatMap Part.text = qs.flatMap Part.text) : ps = qs := by
  induction ps generalizing qs with
  | nil =>
    cases qs with
    | nil => rfl
    | cons q qs =>
      have hnil := (List.append_eq_nil_iff.mp h.symm).1
      exact absurd hnil (Part.text_ne_nil (hq.amounts q List.mem_cons_self))
  | cons p ps ih =>
    cases qs with
    | nil =>
      have hnil := (List.append_eq_nil_iff.mp h).1
      exact absurd hnil (Part.text_ne_nil (hp.amounts p List.mem_cons_self))
    | cons q qs =>
      have hsplit := congrArg splitPart h
      rw [List.flatMap_cons, List.flatMap_cons,
        splitPart_text (hp.amounts p List.mem_cons_self) fun _ => hp.head?_tail,
        splitPart_text (hq.amounts q List.mem_cons_self) fun _ => hq.head?_tail,
        Prod.mk.injEq, Prod.mk.injEq] at hsplit
      obtain ⟨hamount, hunit, hrest⟩ := hsplit
      have hpart : p = q := by
        cases p
        cases q
        exact Part.mk.injEq .. ▸ ⟨hamount, TimeUnit.text_injective hunit⟩
      rw [hpart, ih hp.tail hq.tail hrest]

/-! ## Adding -/

theorem ofParts?_succ (n : Nat) (total : Duration) {cs : List Char} (h : cs ≠ []) :
    ofParts? (n + 1) total cs =
      (ofPart? (splitPart cs).1 (splitPart cs).2.1).bind fun part =>
        (total.add? part).bind fun sum => ofParts? n sum (splitPart cs).2.2 := by
  cases cs with
  | nil => exact absurd rfl h
  | cons c cs => rfl

/-- What is left after a part that is read is shorter. -/
theorem length_lt_of_ofPart? {cs : List Char} {part : Duration}
    (h : ofPart? (splitPart cs).1 (splitPart cs).2.1 = some part) :
    (splitPart cs).2.2.length < cs.length := by
  obtain ⟨happend, hamount, -⟩ := splitPart_spec cs
  obtain ⟨-, -, ⟨-, -, c, hc, -⟩, -⟩ := (ofPart?_eq_some_iff hamount).mp h
  have hpos := List.length_pos_of_mem hc
  have hlength := congrArg List.length happend
  rw [List.length_append, List.length_append] at hlength
  omega

/-- Parts are read until there are none left: more steps than characters change nothing. -/
theorem ofParts?_stable {m n : Nat} {total : Duration} {cs : List Char} (hm : cs.length ≤ m)
    (hn : cs.length ≤ n) : ofParts? m total cs = ofParts? n total cs := by
  induction m generalizing n total cs with
  | zero =>
    cases List.length_eq_zero_iff.mp (Nat.le_zero.mp hm)
    cases n <;> rfl
  | succ m ih =>
    cases cs with
    | nil => cases n <;> rfl
    | cons c cs =>
      cases n with
      | zero => cases hn
      | succ n =>
        rw [ofParts?_succ m total (List.cons_ne_nil c cs),
          ofParts?_succ n total (List.cons_ne_nil c cs)]
        cases hpart : ofPart? (splitPart (c :: cs)).1 (splitPart (c :: cs)).2.1 with
        | none => rfl
        | some part =>
          have hlt := length_lt_of_ofPart? hpart
          simp only [Option.bind_some]
          exact Option.bind_congr fun sum _ => ih (by omega) (by omega)

/-- The parts of a text are added up if each of them and their sum are durations. -/
theorem ofParts?_text {ps : List Part} {ds : List Duration} (hp : IsParts ps)
    (hl : List.Forall₂ Part.Lasts ps ds) {n : Nat} (hn : (ps.flatMap Part.text).length ≤ n)
    {total d : Duration} (hd : d.nanos = total.nanos + (ds.map nanos).sum) :
    ofParts? n total (ps.flatMap Part.text) = some d := by
  induction hl generalizing n total with
  | nil =>
    have htotal : total = d := eq_of_nanos hd.symm
    cases n <;> exact congrArg some htotal
  | @cons p part ps ds hpart hl ih =>
    have hdecimal := hp.amounts p List.mem_cons_self
    have hne : (p :: ps).flatMap Part.text ≠ [] := fun h =>
      Part.text_ne_nil hdecimal (List.append_eq_nil_iff.mp h).1
    have hread : ofPart? p.amount p.unit.text = some part :=
      (ofPart?_eq_some_iff fun c hc => isAmountChar_iff.mpr (hdecimal.chars c hc)).mpr
        ⟨p.unit, rfl, hdecimal, hpart⟩
    rw [List.map_cons, List.sum_cons] at hd
    -- The sum so far is no longer than the whole sum, which is a duration.
    have hbound : total.nanos + part.nanos < durationLimit := by
      have := d.bounded
      omega
    have hsum : total.add? part = some ⟨total.nanos + part.nanos, hbound⟩ :=
      add?_eq_some_iff.mpr rfl
    cases n with
    | zero => exact absurd (List.length_eq_zero_iff.mp (Nat.le_zero.mp hn)) hne
    | succ n =>
      rw [ofParts?_succ n total hne, List.flatMap_cons,
        splitPart_text hdecimal fun _ => hp.head?_tail]
      simp only [hread, Option.bind_some, hsum]
      refine ih hp.tail ?_ (by rw [hd, Nat.add_assoc])
      have hpos := List.length_pos_of_ne_nil (Part.text_ne_nil hdecimal)
      rw [List.flatMap_cons, List.length_append] at hn
      omega

/-- What is added up are the parts of the text. -/
theorem exists_parts {n : Nat} {total d : Duration} {cs : List Char}
    (h : ofParts? n total cs = some d) :
    ∃ ps ds, IsParts ps ∧ cs = ps.flatMap Part.text ∧ List.Forall₂ Part.Lasts ps ds ∧
      d.nanos = total.nanos + (ds.map nanos).sum := by
  induction n generalizing total cs with
  | zero =>
    cases cs with
    | nil =>
      cases h
      exact ⟨[], [], ⟨nofun, nofun⟩, rfl, .nil, rfl⟩
    | cons c cs => cases h
  | succ n ih =>
    cases cs with
    | nil =>
      cases h
      exact ⟨[], [], ⟨nofun, nofun⟩, rfl, .nil, rfl⟩
    | cons c cs =>
      rw [ofParts?_succ n total (List.cons_ne_nil c cs), Option.bind_eq_some_iff] at h
      obtain ⟨part, hpart, h⟩ := h
      obtain ⟨sum, hsum, h⟩ := Option.bind_eq_some_iff.mp h
      obtain ⟨ps, ds, hp, hrest, hl, hd⟩ := ih h
      obtain ⟨happend, hamount, hstop⟩ := splitPart_spec (c :: cs)
      obtain ⟨u, hunit, hdecimal, hlasts⟩ := (ofPart?_eq_some_iff hamount).mp hpart
      refine ⟨⟨_, u⟩ :: ps, part :: ds, .cons hdecimal hp fun e he => hstop e (hrest ▸ he), ?_,
        .cons hlasts hl, ?_⟩
      · rw [List.flatMap_cons, Part.text, hunit, ← hrest]
        exact happend
      · rw [hd, add?_eq_some_iff.mp hsum, List.map_cons, List.sum_cons, Nat.add_assoc]

end Duration

open Duration

theorem Duration.ofText?_eq_some_iff {text : String} {d : Duration} :
    ofText? text = some d ↔ Denotes text d := by
  have htrim := Text.isTrimmed_trim text.toList
  constructor
  · intro h
    simp only [ofText?] at h
    split at h
    · next hz =>
      rcases hz with hz | hz
      · exact .nothing (hz ▸ htrim) (Option.some.inj h).symm
      · exact .zero (hz ▸ htrim) (Option.some.inj h).symm
    · next hz =>
      obtain ⟨ps, ds, hp, hcs, hl, hd⟩ := exists_parts h
      have hne : ps ≠ [] := by
        rintro rfl
        exact hz (.inl hcs)
      exact .parts hne hp (hcs ▸ htrim) hl (by rw [hd]; exact Nat.zero_add _)
  · intro h
    simp only [ofText?]
    cases h with
    | nothing ht hd => rw [if_pos (.inl (Text.isTrimmed_iff.mp ht).symm), hd]
    | zero ht hd => rw [if_pos (.inr (Text.isTrimmed_iff.mp ht).symm), hd]
    | @parts ps ds hne hp ht hl hd =>
      have htext := Text.isTrimmed_iff.mp ht
      have hother : ¬ (Text.trim text.toList = [] ∨ Text.trim text.toList = ['0']) := by
        obtain ⟨p, ps, rfl⟩ := List.exists_cons_of_ne_nil hne
        obtain ⟨c, hc⟩ := List.exists_mem_of_ne_nil _ p.unit.text_ne_nil
        have hmem : c ∈ Text.trim text.toList := by
          rw [← htext]
          exact List.mem_append_left _ (List.mem_append_right _ hc)
        rintro (hz | hz)
        · rw [hz] at hmem
          cases hmem
        · rw [hz, List.mem_singleton] at hmem
          exact absurd (p.unit.not_isAmountChar c hc) (by rw [hmem]; decide)
      rw [if_neg hother, ← htext]
      exact ofParts?_text hp hl (Nat.le_refl _) (by rw [hd]; exact (Nat.zero_add _).symm)

/-- Durations are read by their grammar. A text is accepted exactly if it denotes a duration, and
for that one; every other text is refused with a fault that quotes it as it is. The parts of a text
are told by the text, and after as many steps as it has characters all of them have been added. -/
theorem durationOf_denotes (text : String) :
    (∀ d, durationOf text = .ok d ↔ Denotes text d) ∧
    ((∀ d, ¬ Denotes text d) ↔ durationOf text = .error (.settings (.badDuration text))) ∧
    (Fault.settings (.badDuration text)).message =
      "configuration error: invalid duration value: " ++ text ∧
    (∀ ps qs, IsParts ps → IsParts qs → ps.flatMap Part.text = qs.flatMap Part.text → ps = qs) ∧
    ∀ n total cs, cs.length ≤ n → ofParts? n total cs = ofParts? cs.length total cs := by
  have hread : ∀ d, durationOf text = .ok d ↔ Denotes text d := by
    intro d
    rw [← ofText?_eq_some_iff, durationOf]
    cases ofText? text <;> simp
  refine ⟨hread, ⟨fun h => ?_, fun h d hd => ?_⟩, ?_, fun _ _ => IsParts.unique, fun n total cs hn =>
    ofParts?_stable hn (Nat.le_refl _)⟩
  · rw [durationOf]
    cases ht : ofText? text with
    | none => rfl
    | some d => exact absurd (ofText?_eq_some_iff.mp ht) (h d)
  · rw [← hread, h] at hd
    cases hd
  · have hstart : "configuration error: " ++ "invalid duration value: " =
        "configuration error: invalid duration value: " := by decide
    rw [← hstart, String.append_assoc]
    rfl

/-- Only the first amount may start with its point: the unit before another one would go on with it. -/
example : (ofText? ".5s1.5m").isSome = true ∧ ofText? "1.5m.5s" = none := by decide +kernel

end MetricsQuery
