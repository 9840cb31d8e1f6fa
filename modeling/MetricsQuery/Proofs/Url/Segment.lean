import MetricsQuery.Proofs.Url.Path

/-!
# Segments of web paths

A segment is settled if it reads as itself: nothing in it is encoded, nothing in it is a slash, and
it is no dot segment (`Settled`). Whatever text a path is made from, its segments are settled
(`settled_push`), as encoding neither makes a dot segment nor unmakes one (`plainDots_encode`). So a
path that is read again is the same path (`ofText_join`). What slashes stand at the end of the text
changes no more than the slashes at the end of the path (`kept_segments`).
-/

namespace MetricsQuery.Url

/-! ## Splitting -/

theorem splitOn_eq_splitOnP (sep : Char → Bool) (cs : List Char) :
    splitOn sep cs = cs.splitOnP sep := by
  induction cs with
  | nil => exact List.splitOnP_nil.symm
  | cons c cs ih =>
    rw [List.splitOnP_cons_eq_if_modifyHead, ← ih, splitOn]
    cases h : splitOn sep cs with
    | nil => exact absurd (ih ▸ h) (List.splitOnP_ne_nil sep cs)
    | cons part parts => rfl

/-- No part has a separator in it. -/
theorem not_sep_of_mem_splitOn {sep : Char → Bool} {cs part : List Char}
    (h : part ∈ splitOn sep cs) : ∀ c ∈ part, sep c = false := by
  induction cs generalizing part with
  | nil =>
    rw [splitOn, List.mem_singleton] at h
    subst h
    exact fun _ hc => absurd hc List.not_mem_nil
  | cons c cs ih =>
    rw [splitOn] at h
    split at h
    · next first parts hsplit =>
      rw [hsplit] at ih
      split at h
      · rcases List.mem_cons.mp h with rfl | h
        · exact fun _ hc => absurd hc List.not_mem_nil
        · exact ih h
      · next hc =>
        rcases List.mem_cons.mp h with rfl | h
        · exact List.forall_mem_cons.mpr ⟨Bool.eq_false_iff.mpr hc, ih List.mem_cons_self⟩
        · exact ih (List.mem_cons_of_mem _ h)
    · rw [List.mem_singleton] at h
      subst h
      exact fun _ hc => absurd hc List.not_mem_nil

/-- Separators at the end are as many empty parts. -/
theorem splitOn_append_seps {sep : Char → Bool} {seps : List Char} (h : ∀ c ∈ seps, sep c = true)
    (cs : List Char) :
    splitOn sep (cs ++ seps) = splitOn sep cs ++ List.replicate seps.length [] := by
  induction seps generalizing cs with
  | nil => rw [List.append_nil, List.length_nil, List.replicate_zero, List.append_nil]
  | cons c seps ih =>
    obtain ⟨hc, hseps⟩ := List.forall_mem_cons.mp h
    have hfirst : splitOn sep seps = [] :: List.replicate seps.length [] := ih hseps []
    simp only [splitOn_eq_splitOnP] at hfirst ⊢
    rw [List.splitOnP_append_cons cs seps hc, hfirst, List.length_cons, List.replicate_succ]

namespace Path

/-! ## Dots -/

theorem plainDots_cons {c : Char} (h : c ≠ '%') (cs : List Char) :
    plainDots (c :: cs) = c :: plainDots cs := by
  rw [plainDots]
  · exact fun _ e _ => h e
  · exact fun _ e _ => h e

theorem plainDots_percent {cs : List Char}
    (h : ∀ e rest, e = 'e' ∨ e = 'E' → cs ≠ '2' :: e :: rest) :
    plainDots ('%' :: cs) = '%' :: plainDots cs := by
  rw [plainDots]
  · exact fun rest _ => h 'e' rest (.inl rfl)
  · exact fun rest _ => h 'E' rest (.inr rfl)

open Percent (inPath octet hexDigit escaped encode)

theorem hexDigit_ne_percent : ∀ n < 16, hexDigit n ≠ '%' := by decide

theorem hexDigit_ne_smallE : ∀ n < 16, hexDigit n ≠ 'e' := by decide

theorem eq_of_hexDigit : ∀ m < 16, ∀ n < 16, hexDigit m = '2' → hexDigit n = 'E' →
    m * 16 + n = 0x2E := by decide

/-- A byte that is not a dot is left as it is written. -/
theorem plainDots_octet {b : UInt8} (hb : b.toNat ≠ 0x2E) (cs : List Char) :
    plainDots (octet b ++ cs) = octet b ++ plainDots cs := by
  have hlt := b.toNat_lt
  have hhigh : b.toNat / 16 < 16 := by omega
  have hlow : b.toNat % 16 < 16 := by omega
  simp only [octet, List.cons_append, List.nil_append]
  rw [plainDots_percent, plainDots_cons (hexDigit_ne_percent _ hhigh),
    plainDots_cons (hexDigit_ne_percent _ hlow)]
  rintro e rest he h
  obtain ⟨h₁, h⟩ := List.cons.inj h
  obtain ⟨h₂, -⟩ := List.cons.inj h
  rcases he with rfl | rfl
  · exact hexDigit_ne_smallE _ hlow h₂
  · have := eq_of_hexDigit _ hhigh _ hlow h₁ h₂
    omega

theorem plainDots_octets {bs : List UInt8} (h : ∀ b ∈ bs, b.toNat ≠ 0x2E) (cs : List Char) :
    plainDots (bs.flatMap octet ++ cs) = bs.flatMap octet ++ plainDots cs := by
  induction bs with
  | nil => rfl
  | cons b bs ih =>
    obtain ⟨hb, hbs⟩ := List.forall_mem_cons.mp h
    rw [List.flatMap_cons, List.append_assoc, plainDots_octet hb, ih hbs, List.append_assoc]

/-- Only a dot has the byte of a dot. -/
theorem ne_dot_of_mem_utf8EncodeChar {c : Char} (hc : c ≠ '.') {b : UInt8}
    (hb : b ∈ String.utf8EncodeChar c) : b.toNat ≠ 0x2E := by
  intro h
  by_cases hascii : c.toNat < 0x80
  · rw [← Char.ofNat_toNat c, Utf8.utf8EncodeChar_ofNat hascii, List.mem_singleton] at hb
    rw [hb, Utf8.toNat_ofNat (by omega)] at h
    exact hc ((Char.ofNat_toNat c).symm.trans (congrArg Char.ofNat h))
  · have := Utf8.le_of_mem_utf8EncodeChar (Nat.le_of_not_lt hascii) hb
    omega

theorem ne_of_inPath {c d : Char} (hc : inPath c = true) (hd : inPath d = false) : c ≠ d := by
  rintro rfl
  rw [hc] at hd
  cases hd

/-- Encoding leaves the dots of a segment, plain or encoded, as they are. -/
theorem plainDots_encode (cs : List Char) :
    plainDots (encode inPath cs) = encode inPath (plainDots cs) := by
  fun_induction plainDots cs with
  | case1 cs ih | case2 cs ih => exact congrArg ('.' :: ·) ih
  | case3 c cs hsmall hlarge ih =>
    rw [Percent.encode_cons, Percent.encode_cons, ← ih]
    split
    · next hc =>
      have hdot := ne_of_inPath hc (show inPath '.' = false by decide)
      exact plainDots_octets (fun b => ne_dot_of_mem_utf8EncodeChar hdot) _
    · by_cases hc : c = '%'
      · subst hc
        refine plainDots_percent fun e rest he h => ?_
        -- An encoded dot after the sign would be one that was there before.
        obtain ⟨cs, rfl, htwo⟩ := Percent.eq_cons_of_encode (by decide) h
        obtain ⟨cs, rfl, -⟩ :=
          Percent.eq_cons_of_encode (by rcases he with rfl | rfl <;> decide) htwo
        rcases he with rfl | rfl
        · exact hsmall cs rfl rfl
        · exact hlarge cs rfl rfl
      · exact plainDots_cons hc _
  | case4 => rfl

/-! ## Settled segments -/

/-- A segment that reads as itself. -/
structure Settled (s : List Char) : Prop where
  plain : ∀ c ∈ s, inPath c = false ∧ isSlash true c = false
  notDot : isDot s = false
  notDoubleDot : isDoubleDot s = false

theorem settled_iff (s : List Char) : Settled s ↔
    s.all (fun c => !inPath c && !isSlash true c) = true ∧ isDot s = false ∧
      isDoubleDot s = false := by
  simp only [List.all_eq_true, Bool.and_eq_true, Bool.not_eq_true']
  exact ⟨fun h => ⟨h.plain, h.notDot, h.notDoubleDot⟩, fun ⟨hs, hd, hdd⟩ => ⟨hs, hd, hdd⟩⟩

instance (s : List Char) : Decidable (Settled s) := decidable_of_iff _ (settled_iff s).symm

theorem settled_nil : Settled [] := by decide

theorem Settled.encode_eq {s : List Char} (h : Settled s) : encode inPath s = s :=
  Percent.encode_of_kept fun c hc => (h.plain c hc).1

theorem hexDigit_plain : ∀ n < 16,
    inPath (hexDigit n) = false ∧ isSlash true (hexDigit n) = false := by
  decide

/-- A segment that is no dot segment is settled once it is encoded. -/
theorem settled_encode {s : List Char} (hs : ∀ c ∈ s, isSlash true c = false)
    (hd : isDot s = false) (hdd : isDoubleDot s = false) : Settled (encode inPath s) where
  plain c hc := by
    rcases Percent.mem_encode hc with ⟨hc, hp⟩ | rfl | ⟨n, hn, rfl⟩
    · exact ⟨hp, hs c hc⟩
    · decide
    · exact hexDigit_plain n hn
  notDot := by
    rw [isDot, beq_eq_false_iff_ne, plainDots_encode] at *
    exact fun h => hd (Percent.eq_of_encode (by decide) h)
  notDoubleDot := by
    rw [isDoubleDot, beq_eq_false_iff_ne, plainDots_encode] at *
    exact fun h => hdd (Percent.eq_of_encode (by decide) h)

/-- The segments that a path is made of are settled. -/
theorem settled_push {segments : List (List Char)}
    (h : ∀ s ∈ segments, ∀ c ∈ s, isSlash true c = false) :
    ∀ s ∈ push false [] segments, Settled s :=
  forall_push settled_nil (fun hfile => absurd hfile Bool.false_ne_true) segments
    (fun s hs => settled_encode (h s hs)) fun _ hs => absurd hs List.not_mem_nil

/-- Settled segments are put on top of others as they are. -/
theorem push_settled {segments : List (List Char)} (h : ∀ s ∈ segments, Settled s)
    (acc : List (List Char)) : push false acc segments = segments.reverse ++ acc := by
  induction segments generalizing acc with
  | nil => rfl
  | cons s segments ih =>
    obtain ⟨hs, hrest⟩ := List.forall_mem_cons.mp h
    simp only [push, hs.notDot, hs.notDoubleDot, Bool.false_eq_true, false_and, if_false,
      hs.encode_eq]
    rw [ih hrest, List.reverse_cons, List.append_assoc, List.singleton_append]

/-! ## Paths -/

theorem join_cons (s : List Char) (segments : List (List Char)) :
    join (s :: segments) = '/' :: (s ++ join segments) := rfl

theorem splitOn_join {s : List Char} {segments : List (List Char)}
    (h : ∀ t ∈ s :: segments, ∀ c ∈ t, isSlash true c = false) :
    splitOn (isSlash true) (s ++ join segments) = s :: segments := by
  induction segments generalizing s with
  | nil =>
    rw [splitOn_eq_splitOnP, join, List.flatMap_nil, List.append_nil]
    exact List.splitOnP_eq_singleton (h s List.mem_cons_self)
  | cons t segments ih =>
    obtain ⟨hs, hrest⟩ := List.forall_mem_cons.mp h
    have hsplit := ih hrest
    rw [splitOn_eq_splitOnP] at hsplit ⊢
    rw [join_cons, List.splitOnP_append_cons_of_forall_mem hs '/' (by decide), hsplit]

/-- A path of settled segments is read as itself. -/
theorem ofText_join {s : List Char} {segments : List (List Char)}
    (h : ∀ t ∈ s :: segments, Settled t) :
    ofText true false (join (s :: segments)) = join (s :: segments) := by
  have hfree : ∀ t ∈ s :: segments, ∀ c ∈ t, isSlash true c = false :=
    fun t ht c hc => ((h t ht).plain c hc).2
  have hslash : isSlash true '/' = true := by decide
  simp only [ofText, join_cons, List.head?_cons, Option.map_some, Option.getD_some, hslash, if_true,
    List.drop_one, List.tail_cons, Bool.false_eq_true, if_false]
  rw [splitOn_join hfree, push_settled h, List.append_nil, List.reverse_reverse, join_cons]

/-- The segments of a web path, the last one first. -/
def segments (cs : List Char) : List (List Char) :=
  push false [] (splitOn (isSlash true) (cs.drop 1))

theorem settled_segments (cs : List Char) : ∀ s ∈ segments cs, Settled s :=
  settled_push fun _ hs => not_sep_of_mem_splitOn hs

/-- The path of a text that is empty or starts with a slash. -/
theorem ofText_eq_join {cs : List Char} (h : ∀ c, cs.head? = some c → isSlash true c = true) :
    ofText true false cs = join (segments cs).reverse := by
  simp only [ofText, segments, Bool.false_eq_true, if_false]
  cases cs with
  | nil => rfl
  | cons c cs => rw [List.head?_cons, Option.map_some, Option.getD_some, h c rfl, if_pos rfl]

/-! ## Slashes at the end -/

/-- Without the empty segments at its end, it does not matter how many of them there are. -/
theorem dropWhile_push (n : Nat) : ∀ (segments : List (List Char)) (acc : List (List Char)),
    (push false acc (segments ++ List.replicate n [])).dropWhile (· == []) =
      (push false acc segments).dropWhile (· == [])
  | [], acc => by
    have hempty : ∀ s ∈ List.replicate n ([] : List Char), s = [] :=
      fun _ => List.eq_of_mem_replicate
    rw [List.nil_append, push_settled fun s hs => hempty s hs ▸ settled_nil,
      List.reverse_replicate]
    exact List.dropWhile_append_of_pos fun s hs => beq_iff_eq.mpr (hempty s hs)
  | segment :: rest, acc => by
    -- Only the last segment leaves an empty one behind, so the cases are alike but for that.
    have close : ∀ acc : List (List Char),
        (push false (if rest ++ List.replicate n [] = [] then [] :: acc else acc)
          (rest ++ List.replicate n [])).dropWhile (· == []) =
        (push false (if rest = [] then [] :: acc else acc) rest).dropWhile (· == []) := by
      intro acc
      by_cases hrest : rest = []
      · subst hrest
        cases n with
        | zero => rfl
        | succ n =>
          rw [if_neg (by simp), dropWhile_push (n + 1) [] acc]
          rfl
      · rw [if_neg (by simp [hrest]), if_neg hrest]
        exact dropWhile_push n rest acc
    simp only [List.cons_append, push, Bool.false_eq_true, false_and, if_false]
    split
    · exact close _
    split
    · exact close _
    · exact dropWhile_push n rest _

/-- The segments of a text without the empty ones at the end do not depend on the slashes that the
text ends with. -/
theorem kept_segments {cs slashes : List Char} (h : ∀ c ∈ slashes, isSlash true c = true) :
    (segments (cs ++ slashes)).dropWhile (· == []) = (segments cs).dropWhile (· == []) := by
  unfold segments
  cases cs with
  | nil =>
    have htail : ∀ c ∈ slashes.drop 1, isSlash true c = true :=
      fun c hc => h c (List.mem_of_mem_drop hc)
    have hsplit := splitOn_append_seps htail []
    rw [List.nil_append] at hsplit ⊢
    rw [hsplit, dropWhile_push]
    rfl
  | cons c cs =>
    rw [List.cons_append, List.drop_one, List.tail_cons, List.drop_one, List.tail_cons,
      splitOn_append_seps h, dropWhile_push]

/-- The path without the slashes at its end has the segments without the empty ones at the end. -/
theorem dropWhile_join {segments : List (List Char)} (h : ∀ s ∈ segments, Settled s) :
    ((join segments.reverse).reverse.dropWhile (· == '/')).reverse =
      join (segments.dropWhile (· == [])).reverse := by
  induction segments with
  | nil => rfl
  | cons s segments ih =>
    obtain ⟨hs, hrest⟩ := List.forall_mem_cons.mp h
    have hjoin : join (s :: segments).reverse = join segments.reverse ++ '/' :: s := by
      rw [List.reverse_cons, join, List.flatMap_append, List.flatMap_singleton, join]
    rw [hjoin, List.reverse_append, List.reverse_cons]
    cases hlast : s.reverse with
    | nil =>
      obtain rfl := List.reverse_eq_nil_iff.mp hlast
      exact ih hrest
    | cons c cs =>
      have hc : isSlash true c = false :=
        (hs.plain c (List.mem_reverse.mp (hlast ▸ List.mem_cons_self))).2
      have hslash : ¬ (c == '/') = true := by
        rintro e
        rw [beq_iff_eq.mp e] at hc
        exact absurd hc (by decide)
      have hkept : ¬ (s == []) = true := by
        rintro e
        rw [beq_iff_eq.mp e] at hlast
        cases hlast
      rw [List.cons_append, List.cons_append,
        List.dropWhile_cons_of_neg (p := (· == '/')) hslash,
        List.dropWhile_cons_of_neg (p := (· == [])) hkept, hjoin, ← List.cons_append,
        ← List.cons_append, ← hlast, ← List.reverse_cons, ← List.reverse_append,
        List.reverse_reverse]

end Path

end MetricsQuery.Url
