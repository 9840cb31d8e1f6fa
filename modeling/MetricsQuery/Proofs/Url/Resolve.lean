import MetricsQuery.Proofs.Url.Segment
import MetricsQuery.Proofs.Url.Web

/-!
# Putting endpoints after web addresses

The stem of a URL is its path without the slashes at its end (`path_eq_stem`). An endpoint is put
after the stem of a web address and nothing else changes, although the path is read again for it: its
segments are settled (`IsWeb.resolve_eq`). Addresses whose texts differ in no more than the slashes at
the end of the path have the same stem: `ofText_slashes`.
-/

namespace MetricsQuery.Url

open Text (Runs runs_iff runs_split)

/-! ## Stems -/

theorem path_eq_stem (u : Url) :
    (∃ n, u.path = u.stem ++ List.replicate n '/') ∧ u.stem.getLast? ≠ some '/' := by
  obtain ⟨hsplit, hall, hstop⟩ := runs_split (· == '/') u.path.reverse
  constructor
  · refine ⟨(u.path.reverse.takeWhile (· == '/')).length, ?_⟩
    have hslashes := List.eq_replicate_of_mem fun c hc => beq_iff_eq.mp (hall c hc)
    rw [stem, ← List.reverse_replicate, ← hslashes, ← List.reverse_append, ← hsplit,
      List.reverse_reverse]
  · intro h
    rw [stem, List.getLast?_reverse] at h
    exact absurd (hstop '/' h) (by decide)

/-- The stem of a path that is made from a text. -/
theorem stem_of_path {u : Url} {cs : List Char} (hp : u.path = Path.ofText true false cs)
    (hr : ∀ c, cs.head? = some c → Path.isSlash true c = true) :
    u.stem = Path.join ((Path.segments cs).dropWhile (· == [])).reverse := by
  rw [stem, hp, Path.ofText_eq_join hr, Path.dropWhile_join (Path.settled_segments cs)]

/-! ## Endpoints -/

namespace Path

theorem join_append (ss ts : List (List Char)) : join (ss ++ ts) = join ss ++ join ts :=
  List.flatMap_append

/-- No character of a path of settled segments is left out of it. -/
theorem filter_join {segments : List (List Char)} (h : ∀ s ∈ segments, Settled s) :
    (join segments).filter (!isIgnored ·) = join segments := by
  have ignored : ∀ c, isIgnored c = true → Percent.inPath c = true ∧ c ≠ '/' := by
    intro c hc
    simp only [isIgnored, Bool.or_eq_true, beq_iff_eq] at hc
    rcases hc with (rfl | rfl) | rfl <;> decide
  refine List.filter_eq_self.mpr fun c hc => ?_
  rw [Bool.not_eq_true']
  refine Bool.eq_false_iff.mpr fun hi => ?_
  obtain ⟨s, hs, hc⟩ := List.mem_flatMap.mp hc
  rcases List.mem_cons.mp hc with hc | hc
  · exact (ignored c hi).2 hc
  · have := ((h s hs).plain c hc).1
    rw [(ignored c hi).1] at this
    cases this

/-- A path of settled segments replaces another as it is. -/
theorem replace_join {segments : List (List Char)} (hne : segments ≠ [])
    (h : ∀ s ∈ segments, Settled s) : replace true false (join segments) = join segments := by
  obtain ⟨s, rest, rfl⟩ := List.exists_cons_of_ne_nil hne
  simp only [replace, filter_join h, Bool.not_true, Bool.false_and, Bool.false_eq_true, if_false]
  exact ofText_join h

end Path

/-- A path of settled segments, and not none. -/
def IsEndpoint (endpoint : String) : Prop :=
  ∃ segments, segments ≠ [] ∧ (∀ s ∈ segments, Path.Settled s) ∧
    endpoint.toList = Path.join segments

/-- A URL of the web, with an authority and a path that was made from a text. -/
structure IsWeb (u : Url) : Prop where
  scheme : IsWebScheme u.scheme
  authority : u.authority.isSome = true
  path : ∃ cs, (∀ c, cs.head? = some c → Path.isSlash true c = true) ∧
    u.path = Path.ofText true false cs

/-- An endpoint comes after the stem, and everything but the path is as it was. -/
theorem IsWeb.resolve_eq {u : Url} (h : u.IsWeb) {endpoint : String} (he : IsEndpoint endpoint) :
    u.resolve endpoint = { u with path := u.stem ++ endpoint.toList } := by
  obtain ⟨cs, hrooted, hpath⟩ := h.path
  obtain ⟨ts, hne, hts, hendpoint⟩ := he
  have hstem := stem_of_path hpath hrooted
  have hsettled : ∀ s ∈ ((Path.segments cs).dropWhile (· == [])).reverse ++ ts, Path.Settled s := by
    intro s hs
    rcases List.mem_append.mp hs with hs | hs
    · exact Path.settled_segments cs s ((List.dropWhile_sublist _).mem (List.mem_reverse.mp hs))
    · exact hts s hs
  have hreplace := Path.replace_join (List.append_ne_nil_of_right_ne_nil _ hne) hsettled
  rw [Path.join_append, ← hstem, ← hendpoint] at hreplace
  rw [resolve, h.scheme.special, h.scheme.notFile, hreplace]

/-! ## Slashes at the end of an address -/

/-- The text `cs` of an address has `slashes` at the end of its path. -/
structure HasSlashes (cs before slashes after : List Char) : Prop where
  text : cs = before ++ (slashes ++ after)
  before : ∀ c ∈ before, isTailMark c = false
  slashes : ∀ c ∈ slashes, Path.isSlash true c = true
  after : ∀ c, after.head? = some c → isTailMark c = true

theorem hasSlashes_iff (cs before slashes after : List Char) :
    HasSlashes cs before slashes after ↔ cs = before ++ (slashes ++ after) ∧
      before.all (!isTailMark ·) = true ∧ slashes.all (Path.isSlash true) = true ∧
      after.head?.all isTailMark = true := by
  simp only [List.all_eq_true, Bool.not_eq_true', Option.all_eq_true]
  exact ⟨fun h => ⟨h.text, h.before, h.slashes, h.after⟩, fun ⟨ht, hb, hs, ha⟩ => ⟨ht, hb, hs, ha⟩⟩

instance (cs before slashes after : List Char) : Decidable (HasSlashes cs before slashes after) :=
  decidable_of_iff _ (hasSlashes_iff cs before slashes after).symm

theorem not_mark_of_slash {c : Char} (h : Path.isSlash true c = true) : isTailMark c = false := by
  simp only [Path.isSlash, Bool.true_and, Bool.or_eq_true, beq_iff_eq] at h
  rcases h with rfl | rfl <;> decide

theorem not_mark_of_schemeChar {c : Char} (h : isSchemeChar c = true) : isTailMark c = false := by
  refine Bool.eq_false_iff.mpr fun hm => ?_
  simp only [isTailMark, Bool.or_eq_true, beq_iff_eq] at hm
  rcases hm with rfl | rfl <;> exact absurd h (by decide)

section

variable {cs name slashes host path tail before xs after : List Char}

/-- The mark of a query or a fragment is in none of the parts before the tail. -/
theorem Splits.not_mark (h : Splits cs name slashes host path tail) :
    ∀ c ∈ name ++ ':' :: (slashes ++ (host ++ path)), isTailMark c = false := by
  intro c hc
  simp only [List.mem_append, List.mem_cons] at hc
  rcases hc with hc | rfl | hc | hc | hc
  · exact not_mark_of_schemeChar (h.name.chars c hc)
  · decide
  · exact not_mark_of_slash (h.slashes c hc)
  · exact (h.host c hc).2
  · exact h.path c hc

/-- The slashes at the end of an address are at the end of its path. -/
theorem Splits.of_hasSlashes (h : Splits cs name slashes host path tail)
    (hs : HasSlashes cs before xs after) :
    ∃ inner, path = inner ++ xs ∧ tail = after ∧
      before = name ++ ':' :: (slashes ++ (host ++ inner)) := by
  have hfront : Runs (!isTailMark ·) cs (name ++ ':' :: (slashes ++ (host ++ path))) tail :=
    ⟨by simp only [h.text, List.append_assoc, List.cons_append],
      fun c hc => by rw [h.not_mark c hc]; rfl, fun c hc => by rw [h.tail c hc]; rfl⟩
  have hback : Runs (!isTailMark ·) cs (before ++ xs) after := by
    refine ⟨by rw [hs.text, List.append_assoc], fun c hc => ?_, fun c hc => by
      rw [hs.after c hc]; rfl⟩
    rcases List.mem_append.mp hc with hc | hc
    · rw [hs.before c hc]; rfl
    · rw [not_mark_of_slash (hs.slashes c hc)]; rfl
  obtain ⟨hfront, htail⟩ := runs_iff.mp hfront
  obtain ⟨hback, hafter⟩ := runs_iff.mp hback
  have hsame : (name ++ ':' :: (slashes ++ host)) ++ path = before ++ xs := by
    rw [hback, ← hfront]
    simp only [List.append_assoc, List.cons_append]
  refine (List.append_eq_append_iff.mp hsame).elim ?_ ?_
  · rintro ⟨inner, rfl, rfl⟩
    exact ⟨inner, rfl, htail.trans hafter.symm,
      by simp only [List.append_assoc, List.cons_append]⟩
  · -- The slashes do not reach into the host, whose last character is none.
    rintro ⟨reach, hreach, rfl⟩
    have hlast : reach = [] := by
      by_contra hne
      have hend := congrArg List.getLast? hreach
      rw [List.getLast?_append_of_ne_nil _ (List.cons_ne_nil _ _), ← List.cons_append,
        List.getLast?_append_of_ne_nil _ h.nonempty, List.getLast?_append_of_ne_nil _ hne] at hend
      have hmem := List.getLast_mem hne
      have hslash := hs.slashes _ (List.mem_append_left _ hmem)
      rw [List.getLast?_eq_some_getLast hne] at hend
      rw [(h.host _ (List.mem_of_getLast? hend)).1] at hslash
      cases hslash
    subst hlast
    rw [List.append_nil] at hreach
    exact ⟨[], rfl, htail.trans hafter.symm,
      by rw [← hreach, List.append_nil]⟩

/-- An address falls apart in the same way with other slashes at its end. -/
theorem Splits.with_slashes {inner ys : List Char}
    (h : Splits cs name slashes host (inner ++ xs) tail)
    (hys : ∀ c ∈ ys, Path.isSlash true c = true) :
    Splits (name ++ ':' :: (slashes ++ (host ++ (inner ++ ys ++ tail)))) name slashes host
      (inner ++ ys) tail where
  text := rfl
  name := h.name
  slashes := h.slashes
  nonempty := h.nonempty
  host := h.host
  rooted c hc := by
    cases inner with
    | nil => exact hys c (List.mem_of_mem_head? hc)
    | cons d inner => exact h.rooted c hc
  path c hc := by
    rcases List.mem_append.mp hc with hc | hc
    · exact h.path c (List.mem_append_left _ hc)
    · exact not_mark_of_slash (hys c hc)
  tail := h.tail

end

theorem isWeb_of_ofText {s : String} {u : Url} (hu : ofText s = .ok u) (h : IsWebScheme u.scheme) :
    u.IsWeb := by
  generalize hscheme : u.scheme = scheme at h
  obtain ⟨name, slashes, host, path, tail, a, hsplit, -, -, rfl⟩ :=
    (ofText_web_iff h).mp ⟨hu, hscheme⟩
  exact ⟨h, rfl, path, hsplit.rooted, rfl⟩

/-- An address with other slashes at the end of its path is read as well, and is the same URL but
for the slashes at the end of the path. -/
theorem ofText_slashes {s t : String} {u : Url} {before xs ys after : List Char}
    (hu : ofText s = .ok u) (h : IsWebScheme u.scheme)
    (hs : HasSlashes (significant s) before xs after)
    (ht : HasSlashes (significant t) before ys after) :
    ∃ v, ofText t = .ok v ∧ v.stem = u.stem ∧ v = { u with path := v.path } := by
  generalize hscheme : u.scheme = scheme at h
  obtain ⟨name, slashes, host, path, tail, a, hsplit, hlower, ha, rfl⟩ :=
    (ofText_web_iff h).mp ⟨hu, hscheme⟩
  obtain ⟨inner, rfl, rfl, hbefore⟩ := hsplit.of_hasSlashes hs
  have hsplit' := hsplit.with_slashes ht.slashes
  have htext : significant t = name ++ ':' :: (slashes ++ (host ++ (inner ++ ys ++ tail))) := by
    rw [ht.text, hbefore]
    simp only [List.append_assoc, List.cons_append]
  rw [← htext] at hsplit'
  obtain ⟨hv, -⟩ := (ofText_web_iff h).mpr
    ⟨name, slashes, host, inner ++ ys, tail, a, hsplit', hlower, ha, rfl⟩
  refine ⟨_, hv, ?_, rfl⟩
  rw [stem_of_path rfl hsplit'.rooted, stem_of_path rfl hsplit.rooted,
    Path.kept_segments ht.slashes, Path.kept_segments hs.slashes]

end MetricsQuery.Url
