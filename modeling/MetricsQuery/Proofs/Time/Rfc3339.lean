import MetricsQuery.Proofs.Fallible
import MetricsQuery.Proofs.Number.Digits
import MetricsQuery.Proofs.Time.Civil
import MetricsQuery.Time.Rfc3339
import Mathlib.Data.List.Basic

/-!
# What a text says about time

A text denotes an instant (`Denotes`) if it is a date that exists, a time of day and a zone, and
the instant is as many seconds from the first of 1970 as these make, in days that the calendar counts
one by one (`Date.toDays_next`). Reading a text gives exactly the instant it denotes
(`ofText_eq_ok_iff`).
-/

namespace MetricsQuery.Instant

/-! ## Texts -/

/-- The characters spell the date and the time of day, digit by digit, with that character between
the two. -/
inductive Spells (separator : Char) (k : Clock) : List Char → Prop
  | mk {y : Nat} {year month day hour minute second : List Char} (hy : k.date.year = y)
    (hyear : IsNumeral 4 y year) (hmonth : IsNumeral 2 k.date.month month)
    (hday : IsNumeral 2 k.date.day day) (hhour : IsNumeral 2 k.hour hour)
    (hminute : IsNumeral 2 k.minute minute) (hsecond : IsNumeral 2 k.second second) :
    Spells separator k (year ++ '-' :: month ++ '-' :: day ++
      separator :: hour ++ ':' :: minute ++ ':' :: second)

/-- The characters are a fraction of so many nanoseconds, rounded down, or nothing. -/
inductive IsFraction : List Char → Nat → Prop
  | none : IsFraction [] 0
  | digits {ds : List Char} (hne : ds ≠ []) (hd : ∀ c ∈ ds, c.isDigit = true) :
    IsFraction ('.' :: ds) (digitsValue ds * nanosPerSecond / Nat.pow 10 ds.length)

/-- The characters are a zone that is so many minutes ahead of UTC. -/
inductive IsZone : List Char → Int → Prop
  | utc {c : Char} (hc : c = 'Z' ∨ c = 'z') : IsZone [c] 0
  | ahead {h m : Nat} {hours minutes : List Char} (hh : IsNumeral 2 h hours)
    (hm : IsNumeral 2 m minutes) (hle : m ≤ 59) :
    IsZone ('+' :: hours ++ ':' :: minutes) (60 * h + m)
  | behind {c : Char} {h m : Nat} {hours minutes : List Char} (hc : c = '-' ∨ c = '\u2212')
    (hh : IsNumeral 2 h hours) (hm : IsNumeral 2 m minutes) (hle : m ≤ 59) :
    IsZone (c :: hours ++ ':' :: minutes) (-(60 * h + m))

/-- The text is a date that exists, a time of day, where a second 60 is a leap second, and a zone,
and the instant is when that is. -/
inductive Denotes (s : String) (t : Instant) : Prop
  | mk {separator : Char} {k : Clock} {clock fraction zone : List Char} {nanos : Nat}
    {minutes : Int}
    (htext : s.toList = clock ++ fraction ++ zone)
    (hclock : Spells separator k clock)
    (hseparator : separator = 'T' ∨ separator = 't' ∨ separator = ' ')
    (hfraction : IsFraction fraction nanos)
    (hzone : IsZone zone minutes)
    (hdate : k.date.isValid = true)
    (htime : k.hour ≤ 23 ∧ k.minute ≤ 59 ∧ k.second ≤ 60)
    (hminutes : minutes.natAbs < 24 * 60)
    (hsecs : t.secs = ((k.date.toDays * 24 + k.hour) * 60 + k.minute - minutes) * 60 +
      min k.second 59)
    (hnanos : t.nanos = nanos + if k.second = 60 then nanosPerSecond else 0)

/-! ## Steps of the reader -/

theorem require_eq_ok_iff {b : Bool} {f : TextFault} {u : Unit} :
    require b f = .ok u ↔ b = true := by
  cases b with
  | false =>
    constructor <;> intro h <;> cases h
  | true => exact ⟨fun _ => rfl, fun _ => rfl⟩

theorem digits_eq_ok_iff {cs : List Char} {n : Nat} :
    digits cs = .ok n ↔ IsNumeral cs.length n cs := by
  unfold digits
  split
  · next h =>
    rw [List.all_eq_true] at h
    exact ⟨fun e => ⟨rfl, h, Except.ok.inj e⟩, fun hn => congrArg Except.ok hn.value⟩
  · next h =>
    rw [List.all_eq_true] at h
    constructor
    · intro e
      cases e
    · intro hn
      exact absurd hn.digits h

/-! ## The date and the time of day -/

theorem readClock_eq_ok_iff {cs : List Char} {k : Clock} :
    readClock cs = .ok k ↔ ∃ separator, (separator = 'T' ∨ separator = 't' ∨ separator = ' ') ∧
      Spells separator k cs ∧ k.date.isValid = true := by
  constructor
  · intro h
    unfold readClock at h
    split at h
    · simp only [bind_eq_ok_iff, require_eq_ok_iff, digits_eq_ok_iff, exists_const, beq_iff_eq,
        Bool.or_eq_true, or_assoc] at h
      obtain ⟨y, hyear, rfl, m, hmonth, rfl, d, hday, hdate, hseparator, n, hhour, rfl, i, hminute,
        rfl, e, hsecond, hk⟩ := h
      cases hk
      have hclock : ∀ separator, Spells separator ⟨⟨y, m, d⟩, n, i, e⟩ _ := fun _ =>
        .mk rfl hyear hmonth hday hhour hminute hsecond
      exact ⟨_, hseparator, hclock _, hdate⟩
    · cases h
  · rintro ⟨separator, hseparator, ⟨hy, hyear, hmonth, hday, hhour, hminute, hsecond⟩, hdate⟩
    obtain ⟨⟨y, month, day⟩, hour, minute, second⟩ := k
    obtain rfl := hy
    obtain ⟨y₁, y₂, y₃, y₄, rfl⟩ := List.length_eq_four.mp hyear.length
    obtain ⟨m₁, m₂, rfl⟩ := List.length_eq_two.mp hmonth.length
    obtain ⟨d₁, d₂, rfl⟩ := List.length_eq_two.mp hday.length
    obtain ⟨h₁, h₂, rfl⟩ := List.length_eq_two.mp hhour.length
    obtain ⟨n₁, n₂, rfl⟩ := List.length_eq_two.mp hminute.length
    obtain ⟨e₁, e₂, rfl⟩ := List.length_eq_two.mp hsecond.length
    simp only [readClock, List.cons_append, List.nil_append, bind_eq_ok_iff, require_eq_ok_iff,
      digits_eq_ok_iff, exists_const, beq_iff_eq, Bool.or_eq_true, or_assoc, true_and]
    exact ⟨_, hyear, _, hmonth, _, hday, hdate, hseparator, _, hhour, _, hminute, _, hsecond, rfl⟩

/-! ## The fraction -/

/-- A fraction if there is one. -/
def readOptionalFraction : List Char → Read (Nat × List Char)
  | '.' :: cs => readFraction cs
  | cs => .ok (0, cs)

theorem readOptionalFraction_point (cs : List Char) :
    readOptionalFraction ('.' :: cs) = readFraction cs := rfl

theorem readOptionalFraction_other {cs : List Char} (h : ∀ r, cs = '.' :: r → False) :
    readOptionalFraction cs = .ok (0, cs) := by
  unfold readOptionalFraction
  split
  · next r => exact (h r rfl).elim
  · rfl

theorem isFraction_of_readOptionalFraction {cs rest : List Char} {n : Nat}
    (h : readOptionalFraction cs = .ok (n, rest)) :
    ∃ fraction, cs = fraction ++ rest ∧ IsFraction fraction n := by
  unfold readOptionalFraction at h
  split at h
  · next cs =>
    have hd : ∀ c ∈ cs.takeWhile Char.isDigit, c.isDigit = true :=
      List.all_eq_true.mp List.all_takeWhile
    have hvalue := digitsValue_take 9 hd
    simp only [readFraction] at h
    split at h
    · cases h
    · split at h
      · cases h
      · next hne =>
        simp only [Except.ok.injEq, Prod.mk.injEq] at h
        obtain ⟨rfl, rfl⟩ := h
        refine ⟨'.' :: cs.takeWhile Char.isDigit, ?_, ?_⟩
        · rw [List.cons_append, List.takeWhile_append_dropWhile]
        · rw [hvalue]
          exact .digits hne hd
  · cases h
    exact ⟨[], rfl, .none⟩

theorem readOptionalFraction_of_isFraction {fraction rest : List Char} {n : Nat} {c : Char}
    (h : IsFraction fraction n) (hc : c.isDigit = false) (hpoint : c ≠ '.') :
    readOptionalFraction (fraction ++ c :: rest) = .ok (n, c :: rest) := by
  cases h with
  | none =>
    refine readOptionalFraction_other fun r e => hpoint ?_
    cases e
    rfl
  | @digits ds hne hd =>
    have htake : (ds ++ c :: rest).takeWhile Char.isDigit = ds := by
      rw [List.takeWhile_append_of_pos hd, List.takeWhile_cons_of_neg (by rw [hc]; decide),
        List.append_nil]
    have hdrop : (ds ++ c :: rest).dropWhile Char.isDigit = c :: rest := by
      rw [List.dropWhile_append_of_pos hd, List.dropWhile_cons_of_neg (by rw [hc]; decide)]
    have hvalue := digitsValue_take 9 hd
    rw [List.cons_append, readOptionalFraction_point]
    simp only [readFraction, htake, hdrop, hvalue]
    rw [if_neg (by simp), if_neg hne]
    rfl

/-! ## The zone -/

/-- Two digits have a value below sixty if the first is five at most. -/
theorem le_five_iff {c d : Char} (hc : c.isDigit = true) (hd : d.isDigit = true) :
    c ≤ '5' ↔ digitsValue [c, d] ≤ 59 := by
  rw [Char.isDigit_iff_toNat] at hc hd
  have hvalue : digitsValue [c, d] = 10 * (10 * 0 + (c.toNat - 48)) + (d.toNat - 48) := rfl
  have hle : c ≤ '5' ↔ c.toNat ≤ 53 := Iff.rfl
  have h0 : '0'.toNat = 48 := rfl
  have h9 : '9'.toNat = 57 := rfl
  rw [hvalue, hle]
  omega

theorem isNumeral_two {c d : Char} {n : Nat} : IsNumeral 2 n [c, d] ↔
    (c.isDigit = true ∧ d.isDigit = true) ∧ digitsValue [c, d] = n := by
  constructor
  · rintro ⟨-, h, hn⟩
    exact ⟨⟨h c (by simp), h d (by simp)⟩, hn⟩
  · rintro ⟨⟨hc, hd⟩, hn⟩
    exact ⟨rfl, by simp [hc, hd], hn⟩

theorem readOffsetAmount_eq_ok_iff {cs rest : List Char} {n : Nat} :
    readOffsetAmount cs = .ok (n, rest) ↔
      ∃ h m hours minutes, cs = hours ++ ':' :: minutes ++ rest ∧ IsNumeral 2 h hours ∧
        IsNumeral 2 m minutes ∧ m ≤ 59 ∧ n = h * 3600 + m * 60 := by
  constructor
  · intro h
    unfold readOffsetAmount at h
    split at h
    · next h₁ h₂ cs =>
      simp only [bind_eq_ok_iff, require_eq_ok_iff, exists_const, Bool.and_eq_true] at h
      obtain ⟨hh, h⟩ := h
      split at h
      · cases h
      · next c cs =>
        simp only [bind_eq_ok_iff, require_eq_ok_iff, exists_const, beq_iff_eq] at h
        obtain ⟨rfl, h⟩ := h
        split at h
        · next m₁ m₂ cs =>
          simp only [bind_eq_ok_iff, require_eq_ok_iff, exists_const, Bool.and_eq_true,
            decide_eq_true_eq, Except.ok.injEq, Prod.mk.injEq] at h
          obtain ⟨hm, hle, rfl, rfl⟩ := h
          exact ⟨_, _, [h₁, h₂], [m₁, m₂], rfl, isNumeral_two.mpr ⟨hh, rfl⟩,
            isNumeral_two.mpr ⟨hm, rfl⟩, (le_five_iff hm.1 hm.2).mp hle, rfl⟩
        · cases h
        · cases h
    · cases h
    · cases h
  · rintro ⟨h, m, hours, minutes, rfl, hh, hm, hle, rfl⟩
    obtain ⟨h₁, h₂, rfl⟩ := List.length_eq_two.mp hh.length
    obtain ⟨m₁, m₂, rfl⟩ := List.length_eq_two.mp hm.length
    obtain ⟨hhours, rfl⟩ := isNumeral_two.mp hh
    obtain ⟨hminutes, rfl⟩ := isNumeral_two.mp hm
    have hfive := (le_five_iff hminutes.1 hminutes.2).mpr hle
    simp only [readOffsetAmount, List.cons_append, List.nil_append, bind_eq_ok_iff,
      require_eq_ok_iff, exists_const, Bool.and_eq_true, decide_eq_true_eq, beq_iff_eq]
    exact ⟨hhours, trivial, hminutes, hfive, trivial⟩

theorem isZone_of_readOffset {cs rest : List Char} {n : Int} (h : readOffset cs = .ok (n, rest)) :
    ∃ zone minutes, cs = zone ++ rest ∧ IsZone zone minutes ∧ n = minutes * 60 := by
  unfold readOffset at h
  split at h
  · cases h
  · next c cs =>
    split at h
    · next hc =>
      cases h
      exact ⟨[c], 0, rfl, .utc hc, rfl⟩
    · split at h
      · next hc =>
        subst hc
        obtain ⟨⟨p, rest⟩, ha, hp⟩ := map_eq_ok_iff.mp h
        cases hp
        obtain ⟨h, m, hours, minutes, rfl, hh, hm, hle, hp⟩ := readOffsetAmount_eq_ok_iff.mp ha
        exact ⟨_, _, rfl, .ahead hh hm hle, by omega⟩
      · split at h
        · next hc =>
          obtain ⟨⟨p, rest⟩, ha, hp⟩ := map_eq_ok_iff.mp h
          cases hp
          obtain ⟨h, m, hours, minutes, rfl, hh, hm, hle, hp⟩ := readOffsetAmount_eq_ok_iff.mp ha
          exact ⟨_, _, rfl, .behind hc hh hm hle, by omega⟩
        · cases h

theorem readOffset_of_isZone {zone : List Char} {minutes : Int} (h : IsZone zone minutes)
    (rest : List Char) : readOffset (zone ++ rest) = .ok (minutes * 60, rest) := by
  cases h with
  | utc hc => exact if_pos hc
  | @ahead h m hs ms hh hm hle =>
    have ha : readOffsetAmount (hs ++ ':' :: ms ++ rest) = .ok (h * 3600 + m * 60, rest) :=
      readOffsetAmount_eq_ok_iff.mpr ⟨h, m, hs, ms, rfl, hh, hm, hle, rfl⟩
    have hn : ((h * 3600 + m * 60 : Nat) : Int) = (60 * h + m) * 60 := by omega
    show (readOffsetAmount (hs ++ ':' :: ms ++ rest)).map _ = _
    rw [ha, ← hn]
    rfl
  | @behind c h m hs ms hc hh hm hle =>
    have ha : readOffsetAmount (hs ++ ':' :: ms ++ rest) = .ok (h * 3600 + m * 60, rest) :=
      readOffsetAmount_eq_ok_iff.mpr ⟨h, m, hs, ms, rfl, hh, hm, hle, rfl⟩
    have hn : -((h * 3600 + m * 60 : Nat) : Int) = -(60 * h + m) * 60 := by omega
    rcases hc with rfl | rfl <;>
    · show (readOffsetAmount (hs ++ ':' :: ms ++ rest)).map _ = _
      rw [ha, ← hn]
      rfl

/-- A zone does not start like the end of a fraction. -/
theorem IsZone.head {zone : List Char} {minutes : Int} (h : IsZone zone minutes) :
    ∃ c cs, zone = c :: cs ∧ c.isDigit = false ∧ c ≠ '.' := by
  cases h with
  | utc hc => exact ⟨_, _, rfl, by rcases hc with rfl | rfl <;> decide⟩
  | ahead => exact ⟨_, _, rfl, by decide⟩
  | behind hc => exact ⟨_, _, rfl, by rcases hc with rfl | rfl <;> decide⟩

/-! ## The whole text -/

theorem length_le_byteLength (cs : List Char) : cs.length ≤ byteLength cs := by
  induction cs with
  | nil => exact Nat.zero_le _
  | cons c cs ih =>
    have happend : String.ofList (c :: cs) = String.ofList [c] ++ String.ofList cs := by
      rw [← String.ofList_append]
      rfl
    have hpos : 0 < c.utf8Size := c.utf8Size_pos
    have hsingle : (String.ofList [c]).utf8ByteSize = c.utf8Size := by
      rw [← String.singleton_eq_ofList, String.utf8ByteSize_singleton]
    unfold byteLength at ih ⊢
    rw [happend, String.utf8ByteSize_append, hsingle, List.length_cons]
    omega

theorem Spells.length {separator : Char} {k : Clock} {cs : List Char} (h : Spells separator k cs) :
    cs.length = clockLength := by
  obtain ⟨-, hyear, hmonth, hday, hhour, hminute, hsecond⟩ := h
  simp only [List.length_append, List.length_cons, hyear.length, hmonth.length, hday.length,
    hhour.length, hminute.length, hsecond.length, clockLength]

/-- A text that is filled up has a character that no date and no time of day has. -/
theorem Spells.length_le {separator : Char} {k : Clock} {cs : List Char}
    (h : Spells separator k ((cs ++ List.replicate clockLength '\x00').take clockLength))
    (hseparator : separator ≠ '\x00') : clockLength ≤ cs.length := by
  have hnul : ∀ {ds : List Char}, Spells separator k ds → '\x00' ∉ ds := by
    have hdigits : ∀ {width n : Nat} {ds : List Char}, IsNumeral width n ds → '\x00' ∉ ds :=
      fun hn hmem => absurd (hn.digits _ hmem) (by decide)
    rintro _ ⟨-, hyear, hmonth, hday, hhour, hminute, hsecond⟩
    simp [hdigits hyear, hdigits hmonth, hdigits hday, hdigits hhour, hdigits hminute,
      hdigits hsecond, hseparator.symm]
  refine Nat.le_of_not_lt fun hlt => hnul h ?_
  rw [List.take_append, List.take_replicate]
  exact List.mem_append_right _ (List.mem_replicate.mpr ⟨by omega, rfl⟩)

theorem ofText_eq (s : String) : ofText s = (do
    require (clockLength ≤ byteLength s.toList) .tooShort
    let clock ← readClock
      ((s.toList ++ List.replicate clockLength '\x00').take clockLength)
    let (nanos, rest) ← readOptionalFraction (s.toList.drop clockLength)
    require clock.isValid .outOfRange
    let (offset, rest) ← readOffset rest
    require (offset.natAbs < 86400) .outOfRange
    require rest.isEmpty .trailing
    match of? (clock.date.toDays * secondsPerDay + clock.secondOfDay - offset)
        (nanos + if clock.isLeap then nanosPerSecond else 0) with
    | some t => .ok t
    | none => .error .outOfRange) := by
  unfold ofText
  dsimp only
  congr 1
  funext _
  congr 1
  funext clock
  split
  · next r h =>
    rw [h]
    exact congrArg (· >>= _) (readOptionalFraction_point r).symm
  · next h => exact congrArg (· >>= _) (readOptionalFraction_other h).symm

theorem of?_eq_some_iff {secs : Int} {nanos : Nat} {t : Instant} :
    of? secs nanos = some t ↔ t.secs = secs ∧ t.nanos = nanos := by
  obtain ⟨s, n, hn⟩ := t
  unfold of?
  split
  · simp only [Option.some.injEq, mk.injEq]
    exact ⟨fun h => ⟨h.1.symm, h.2.symm⟩, fun h => ⟨h.1.symm, h.2.symm⟩⟩
  · next hle =>
    constructor
    · intro h
      cases h
    · rintro ⟨-, rfl⟩
      exact absurd hn hle

/-- The second that a time of day and a zone make. -/
theorem secs_eq {k : Clock} (h : k.second ≤ 60) (minutes : Int) :
    k.date.toDays * secondsPerDay + k.secondOfDay - minutes * 60 =
      ((k.date.toDays * 24 + k.hour) * 60 + k.minute - minutes) * 60 + min k.second 59 := by
  simp only [secondsPerDay, Clock.secondOfDay, Clock.isLeap, beq_iff_eq]
  split <;> omega

theorem Clock.isValid_iff {k : Clock} :
    k.isValid = true ↔ k.hour ≤ 23 ∧ k.minute ≤ 59 ∧ k.second ≤ 60 := by
  simp only [Clock.isValid, Bool.and_eq_true, decide_eq_true_eq, and_assoc]

theorem denotes_of_ofText {s : String} {t : Instant} (h : ofText s = .ok t) : Denotes s t := by
  rw [ofText_eq] at h
  simp only [bind_eq_ok_iff, require_eq_ok_iff, exists_const, Prod.exists] at h
  obtain ⟨-, k, hclock, nanos, rest, hread, hvalid, offset, rest', hoffset, hrange, hempty, h⟩ := h
  obtain ⟨separator, hseparator, hspells, hdate⟩ := readClock_eq_ok_iff.mp hclock
  have hnul : separator ≠ '\x00' := by
    rcases hseparator with rfl | rfl | rfl <;> decide
  rw [List.take_append_of_le_length (hspells.length_le hnul)] at hspells
  obtain ⟨fraction, hdrop, hfraction⟩ := isFraction_of_readOptionalFraction hread
  obtain ⟨zone, minutes, rfl, hzone, rfl⟩ := isZone_of_readOffset hoffset
  obtain rfl : rest' = [] := List.isEmpty_iff.mp hempty
  have htime := Clock.isValid_iff.mp hvalid
  have hsome : of? (k.date.toDays * secondsPerDay + k.secondOfDay - minutes * 60)
      (nanos + if k.isLeap = true then nanosPerSecond else 0) = some t := by
    split at h
    · next e => rw [e, Except.ok.inj h]
    · cases h
  obtain ⟨hsecs, hnanos⟩ := of?_eq_some_iff.mp hsome
  refine ⟨?_, hspells, hseparator, hfraction, hzone, hdate, htime, ?_, ?_, ?_⟩
  · rw [List.append_nil] at hdrop
    rw [List.append_assoc, ← hdrop, List.take_append_drop]
  · rw [decide_eq_true_eq] at hrange
    omega
  · rw [hsecs, secs_eq htime.2.2]
  · simpa only [Clock.isLeap, beq_iff_eq] using hnanos

theorem ofText_of_denotes {s : String} {t : Instant} (h : Denotes s t) : ofText s = .ok t := by
  obtain ⟨htext, hclock, hseparator, hfraction, hzone, hdate, htime, hminutes, hsecs, hnanos⟩ := h
  next separator k clock fraction zone nanos minutes =>
  have hlength := hclock.length
  have htake : (s.toList ++ List.replicate clockLength '\x00').take clockLength = clock := by
    rw [htext, List.append_assoc, List.append_assoc, ← hlength, List.take_left]
  have hdrop : s.toList.drop clockLength = fraction ++ zone := by
    rw [htext, List.append_assoc, ← hlength, List.drop_left]
  have hle : clockLength ≤ byteLength s.toList := by
    refine Nat.le_trans ?_ (length_le_byteLength s.toList)
    rw [htext, List.append_assoc, List.length_append]
    omega
  obtain ⟨c, cs, rfl, hc, hpoint⟩ := hzone.head
  have hoffset := readOffset_of_isZone hzone []
  rw [List.append_nil] at hoffset
  rw [ofText_eq]
  simp only [bind_eq_ok_iff, require_eq_ok_iff, exists_const, Prod.exists]
  refine ⟨decide_eq_true hle, k, ?_, nanos, c :: cs, ?_, Clock.isValid_iff.mpr htime, minutes * 60,
    [], hoffset, decide_eq_true (by omega), rfl, ?_⟩
  · rw [htake]
    exact readClock_eq_ok_iff.mpr ⟨separator, hseparator, hclock, hdate⟩
  · rw [hdrop]
    exact readOptionalFraction_of_isFraction hfraction hc hpoint
  · have hsome : of? (k.date.toDays * secondsPerDay + k.secondOfDay - minutes * 60)
        (nanos + if k.isLeap = true then nanosPerSecond else 0) = some t := by
      refine of?_eq_some_iff.mpr ⟨?_, ?_⟩
      · rw [hsecs, secs_eq htime.2.2]
      · simpa only [Clock.isLeap, beq_iff_eq] using hnanos
    simp only [hsome]

/-- Reading a text gives the instant it denotes, and fails if there is none. -/
theorem ofText_eq_ok_iff {s : String} {t : Instant} : ofText s = .ok t ↔ Denotes s t :=
  ⟨denotes_of_ofText, ofText_of_denotes⟩

/-- A text denotes one instant at most. -/
theorem Denotes.unique {s : String} {t t' : Instant} (h : Denotes s t) (h' : Denotes s t') :
    t = t' := by
  have e := (ofText_of_denotes h).symm.trans (ofText_of_denotes h')
  exact Except.ok.inj e

end MetricsQuery.Instant
