import MetricsQuery.Proofs.Fallible
import MetricsQuery.Proofs.Text.Trim
import MetricsQuery.Url.Reader

/-!
# Addresses of the web

The text of a web address falls apart into the name of its scheme, slashes, the text of its
authority, its path and what follows the path (`Splits`). Reading the address reads these parts,
each by itself: `ofText_web_iff`.
-/

namespace MetricsQuery.Url

open Text (Runs runs_iff runs_split)

/-- The schemes of the web. -/
def IsWebScheme (scheme : List Char) : Prop := scheme = "http".toList ∨ scheme = "https".toList

variable {scheme : List Char}

theorem IsWebScheme.special (h : IsWebScheme scheme) : isSpecialScheme scheme = true := by
  rcases h with rfl | rfl <;> rfl

theorem IsWebScheme.notFile (h : IsWebScheme scheme) : isFileScheme scheme = false := by
  rcases h with rfl | rfl <;> rfl

theorem IsWebScheme.hasPort (h : IsWebScheme scheme) : (standardPort? scheme).isSome = true := by
  rcases h with rfl | rfl <;> rfl

/-! ## Parts of the text -/

/-- The name of a scheme: letters, digits and a few signs, the first a letter. -/
structure IsSchemeName (name : List Char) : Prop where
  head : ∃ c rest, name = c :: rest ∧ c.isAlpha = true
  chars : ∀ c ∈ name, isSchemeChar c = true

theorem scheme?_eq_some_iff {cs rest : List Char} : scheme? cs = some (scheme, rest) ↔
    ∃ name, cs = name ++ ':' :: rest ∧ IsSchemeName name ∧ name.map Char.toLower = scheme := by
  constructor
  · intro h
    have hruns := runs_split isSchemeChar cs
    have hdrop := hruns.drop_eq
    simp only [scheme?] at h
    split at h
    · next c name rest' hname hcolon =>
      split at h
      · next hc =>
        rw [Option.some.injEq, Prod.mk.injEq] at h
        obtain ⟨hlower, rfl⟩ := h
        refine ⟨cs.takeWhile isSchemeChar, ?_, ⟨⟨c, name, hname, hc⟩, hruns.all⟩, hlower⟩
        rw [← hcolon, hdrop]
        exact hruns.append
      · cases h
    · cases h
  · rintro ⟨name, rfl, ⟨⟨c, t, rfl, hc⟩, hchars⟩, rfl⟩
    have hruns : Runs isSchemeChar ((c :: t) ++ ':' :: rest) (c :: t) (':' :: rest) :=
      ⟨rfl, hchars, fun a ha => by cases ha; decide⟩
    have htake := hruns.takeWhile_eq
    have hdrop := hruns.drop_eq
    simp only [scheme?, htake, hdrop, hc, if_true]

/-- How the text of a web address falls apart. -/
structure Splits (cs name slashes host path tail : List Char) : Prop where
  text : cs = name ++ ':' :: (slashes ++ (host ++ (path ++ tail)))
  name : IsSchemeName name
  slashes : ∀ c ∈ slashes, Path.isSlash true c = true
  nonempty : host ≠ []
  host : ∀ c ∈ host, Path.isSlash true c = false ∧ isTailMark c = false
  rooted : ∀ c, path.head? = some c → Path.isSlash true c = true
  path : ∀ c ∈ path, isTailMark c = false
  tail : ∀ c, tail.head? = some c → isTailMark c = true

/-! ## Authority -/

theorem authorityOf_nil (h : IsWebScheme scheme) : authorityOf scheme [] = .error .emptyHost := by
  rcases h with rfl | rfl <;> rfl

theorem authorityOf_at (h : IsWebScheme scheme) : authorityOf scheme ['@'] = .error .emptyHost := by
  rcases h with rfl | rfl <;> rfl

/-- The end of the text of an authority. -/
def inAuthority (c : Char) : Bool := !(Path.isSlash true c || isTailMark c)

theorem inAuthority_iff (c : Char) :
    inAuthority c = true ↔ Path.isSlash true c = false ∧ isTailMark c = false := by
  rw [inAuthority, Bool.not_eq_true', Bool.or_eq_false_iff]

/-- Reading what follows the slashes of a web address. -/
theorem afterSlashes_eq_ok_iff (h : IsWebScheme scheme) {cs : List Char} {u : Url} :
    afterSlashes scheme cs = .ok u ↔ ∃ host rest a, Runs inAuthority cs host rest ∧ host ≠ [] ∧
      authorityOf scheme host = .ok a ∧
      u = withPath ⟨scheme, some a, false, [], none, none⟩ rest := by
  have hruns := runs_split inAuthority cs
  have hdrop := hruns.drop_eq
  have htext : (cs.takeWhile fun c => !(Path.isSlash (isSpecialScheme scheme) c || isTailMark c)) =
      cs.takeWhile inAuthority := by
    rw [h.special]
    rfl
  simp only [afterSlashes, htext, hdrop]
  constructor
  · intro hu
    split at hu
    · cases hu
    · obtain ⟨a, ha, hu⟩ := bind_eq_ok_iff.mp hu
      refine ⟨_, _, a, hruns, fun hnil => ?_, ha, (Except.ok.inj hu).symm⟩
      rw [hnil, authorityOf_nil h] at ha
      cases ha
  · rintro ⟨host, rest, a, hruns', -, ha, rfl⟩
    obtain ⟨rfl, rfl⟩ := runs_iff.mp hruns'
    have hat : ¬ ((cs.takeWhile inAuthority).getLast? = some '@' ∧
        (cs.takeWhile inAuthority).length = 1 ∧ cs.dropWhile inAuthority ≠ []) := by
      rintro ⟨hlast, hlength, -⟩
      obtain ⟨c, hc⟩ := List.length_eq_one_iff.mp hlength
      rw [hc] at hlast ha
      obtain rfl : c = '@' := Option.some.inj hlast
      rw [authorityOf_at h] at ha
      cases ha
    rw [if_neg hat]
    exact bind_eq_ok_iff.mpr ⟨a, ha, rfl⟩

/-! ## Path and tail -/

theorem withPath_append (h : IsWebScheme scheme) (a : Authority) {path tail : List Char}
    (hpath : ∀ c ∈ path, isTailMark c = false)
    (htail : ∀ c, tail.head? = some c → isTailMark c = true) :
    withPath ⟨scheme, some a, false, [], none, none⟩ (path ++ tail) =
      withTail ⟨scheme, some a, false, Path.ofText true false path, none, none⟩ tail := by
  have hruns : Runs (!isTailMark ·) (path ++ tail) path tail :=
    ⟨rfl, fun c hc => by rw [hpath c hc]; rfl, fun c hc => by rw [htail c hc]; rfl⟩
  have htake := hruns.takeWhile_eq
  have hdrop := hruns.drop_eq
  simp only [withPath, htake, hdrop, h.special, h.notFile, Bool.not_true, Bool.false_eq_true,
    and_false, if_false]

/-! ## Whole addresses -/

theorem scheme_file {cs : List Char} {u : Url} (h : file scheme cs = .ok u) :
    u.scheme = scheme := by
  unfold file at h
  split at h
  · split at h
    · dsimp only at h
      split at h
      · cases h
        rfl
      · obtain ⟨host, -, h⟩ := bind_eq_ok_iff.mp h
        split at h <;> cases h <;> rfl
    · cases h
      rfl
  · cases h
    rfl

theorem scheme_afterSlashes {cs : List Char} {u : Url} (h : afterSlashes scheme cs = .ok u) :
    u.scheme = scheme := by
  simp only [afterSlashes] at h
  split at h
  · cases h
  · obtain ⟨a, -, h⟩ := bind_eq_ok_iff.mp h
    cases h
    rfl

theorem scheme_other {cs : List Char} {u : Url} (h : other scheme cs = .ok u) :
    u.scheme = scheme := by
  unfold other at h
  split at h
  · exact scheme_afterSlashes h
  · cases h
    rfl
  · cases h
    rfl

/-- A web address is read after the slashes that follow its scheme. -/
theorem ofText_eq_ok_iff (h : IsWebScheme scheme) {s : String} {u : Url} :
    ofText s = .ok u ∧ u.scheme = scheme ↔ ∃ cs, scheme? (significant s) = some (scheme, cs) ∧
      afterSlashes scheme (cs.dropWhile (Path.isSlash true)) = .ok u := by
  constructor
  · rintro ⟨hu, rfl⟩
    unfold ofText at hu
    split at hu
    · cases hu
    · next scheme cs hs =>
      split at hu
      · next hfile =>
        rw [← scheme_file hu, h.notFile] at hfile
        cases hfile
      · split at hu
        · rw [scheme_afterSlashes hu]
          exact ⟨cs, hs, hu⟩
        · next hport =>
          rw [← scheme_other hu] at hport
          exact absurd h.hasPort hport
  · rintro ⟨cs, hs, hu⟩
    refine ⟨?_, scheme_afterSlashes hu⟩
    simp only [ofText, hs, h.notFile, h.hasPort, Bool.false_eq_true, if_false, if_true]
    exact hu

/-- Reading a web address reads the parts that its text falls apart into. -/
theorem ofText_web_iff (h : IsWebScheme scheme) {s : String} {u : Url} :
    ofText s = .ok u ∧ u.scheme = scheme ↔ ∃ name slashes host path tail a,
      Splits (significant s) name slashes host path tail ∧ name.map Char.toLower = scheme ∧
      authorityOf scheme host = .ok a ∧
      u = withTail ⟨scheme, some a, false, Path.ofText true false path, none, none⟩ tail := by
  rw [ofText_eq_ok_iff h]
  constructor
  · rintro ⟨cs, hscheme, hu⟩
    obtain ⟨name, htext, hname, hlower⟩ := scheme?_eq_some_iff.mp hscheme
    obtain ⟨host, rest, a, hhost, hne, ha, rfl⟩ := (afterSlashes_eq_ok_iff h).mp hu
    have hslashes := runs_split (Path.isSlash true) cs
    have hpath := runs_split (!isTailMark ·) rest
    have hunmarked : ∀ c ∈ rest.takeWhile (!isTailMark ·), isTailMark c = false :=
      fun c hc => by simpa using hpath.all c hc
    have hmarked : ∀ c, (rest.dropWhile (!isTailMark ·)).head? = some c → isTailMark c = true :=
      fun c hc => by simpa using hpath.stop c hc
    refine ⟨name, _, host, _, _, a, ⟨?_, hname, hslashes.all, hne,
      fun c hc => (inAuthority_iff c).mp (hhost.all c hc), fun c hc => ?_, hunmarked, hmarked⟩,
      hlower, ha, ?_⟩
    · rw [← hpath.append, ← hhost.append, ← hslashes.append]
      exact htext
    · have hfirst : rest.head? = some c := by
        rw [hpath.append, List.head?_append, hc]
        rfl
      have hstop := hhost.stop c hfirst
      rw [← Bool.not_eq_true, inAuthority_iff, hunmarked c (List.mem_of_mem_head? hc)] at hstop
      simpa using hstop
    · rw [← withPath_append h a hunmarked hmarked, ← hpath.append]
  · rintro ⟨name, slashes, host, path, tail, a, hs, hlower, ha, rfl⟩
    refine ⟨_, scheme?_eq_some_iff.mpr ⟨name, hs.text, hs.name, hlower⟩,
      (afterSlashes_eq_ok_iff h).mpr ⟨host, path ++ tail, a, ?_, hs.nonempty, ha, ?_⟩⟩
    · have hruns : Runs (Path.isSlash true) (slashes ++ (host ++ (path ++ tail))) slashes
          (host ++ (path ++ tail)) := by
        refine ⟨rfl, hs.slashes, fun c hc => ?_⟩
        obtain ⟨d, t, hd⟩ := List.exists_cons_of_ne_nil hs.nonempty
        rw [hd, List.cons_append, List.head?_cons, Option.some.injEq] at hc
        exact (hs.host c (by rw [hd, hc]; exact List.mem_cons_self)).1
      rw [← (runs_iff.mp hruns).2]
      refine ⟨rfl, fun c hc => (inAuthority_iff c).mpr (hs.host c hc), fun c hc => ?_⟩
      rw [← Bool.not_eq_true, inAuthority_iff]
      rintro ⟨hslash, hmark⟩
      cases hp : path with
      | nil =>
        rw [hp, List.nil_append] at hc
        rw [hs.tail c hc] at hmark
        cases hmark
      | cons d t =>
        rw [hp, List.cons_append] at hc
        rw [hs.rooted c (by rw [hp]; exact hc)] at hslash
        cases hslash
    · exact (withPath_append h a hs.path hs.tail).symm

end MetricsQuery.Url
