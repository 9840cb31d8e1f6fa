import MetricsQuery.Proofs.Url.Percent
import MetricsQuery.Url.Path

/-!
# The characters of a path

A path never holds the mark that starts a query, whatever text it is made from (`not_mem_replace`):
a segment is written with that character encoded, and a drive letter is a letter and a colon. So the
first `?` of a URL ends its path.
-/

namespace MetricsQuery.Url

namespace Path

theorem mem_of_mem_pop {file : Bool} {acc : List (List Char)} {s : List Char}
    (h : s ∈ pop file acc) : s ∈ acc := by
  unfold pop at h
  split at h
  · split at h
    · exact h
    · cases h
  · exact List.mem_cons_of_mem _ h
  · cases h

/-- What holds of an empty segment, of a drive letter and of the segments that are written, holds of
all segments that are put on top of others it holds of. -/
theorem forall_push {P : List Char → Prop} {file : Bool} (hempty : P [])
    (hdrive : file = true → ∀ s, isDriveLetter s = true → P (driveLetter s)) :
    ∀ (segments : List (List Char)) {acc : List (List Char)},
      (∀ s ∈ segments, isDot s = false → isDoubleDot s = false →
        P (Percent.encode Percent.inPath s)) →
      (∀ s ∈ acc, P s) → ∀ s ∈ push file acc segments, P s
  | [], _, _, hacc => hacc
  | segment :: rest, acc, hsegments, hacc => by
    obtain ⟨hsegment, hrest⟩ := List.forall_mem_cons.mp hsegments
    have close : ∀ {acc : List (List Char)}, (∀ s ∈ acc, P s) →
        ∀ s ∈ if rest = [] then [] :: acc else acc, P s := by
      intro acc hacc
      split
      · exact List.forall_mem_cons.mpr ⟨hempty, hacc⟩
      · exact hacc
    simp only [push]
    split
    · exact forall_push hempty hdrive rest hrest (close fun s hs => hacc s (mem_of_mem_pop hs))
    split
    · exact forall_push hempty hdrive rest hrest (close hacc)
    split
    · next hletter =>
      refine forall_push hempty hdrive rest hrest (List.forall_mem_cons.mpr ⟨?_, fun _ h => ?_⟩)
      · exact hdrive hletter.1 segment hletter.2.2
      · cases h
    · next hdouble hdot _ =>
      have hnew := hsegment (Bool.eq_false_iff.mpr hdot) (Bool.eq_false_iff.mpr hdouble)
      exact forall_push hempty hdrive rest hrest (List.forall_mem_cons.mpr ⟨hnew, hacc⟩)

/-- Segments without the mark of a query. -/
def Unmarked (segments : List (List Char)) : Prop := ∀ s ∈ segments, '?' ∉ s

theorem not_mem_driveLetter {segment : List Char} (h : isDriveLetter segment = true) :
    '?' ∉ driveLetter segment := by
  match segment, h with
  | [c, d], h =>
    simp only [isDriveLetter, Bool.and_eq_true] at h
    simp only [driveLetter, List.mem_cons, List.not_mem_nil, or_false, not_or]
    refine ⟨?_, by decide⟩
    rintro rfl
    exact absurd h.1 (by decide)

theorem unmarked_push (file : Bool) (segments : List (List Char)) :
    Unmarked (push file [] segments) :=
  forall_push List.not_mem_nil (fun _ _ h => not_mem_driveLetter h) segments
    (fun s _ _ _ => Percent.not_mem_encode (by decide) s) fun _ h => by cases h

theorem not_mem_join {segments : List (List Char)} (h : Unmarked segments) :
    '?' ∉ join segments := by
  intro hm
  obtain ⟨s, hs, hc⟩ := List.mem_flatMap.mp hm
  rcases List.mem_cons.mp hc with hc | hc
  · exact absurd hc (by decide)
  · exact h s hs hc

theorem not_mem_ofText (special file : Bool) (cs : List Char) : '?' ∉ ofText special file cs := by
  unfold ofText
  refine not_mem_join ?_
  have h : Unmarked (push file [] (splitOn (isSlash special)
      (if (cs.head?.map (isSlash special)).getD false then cs.drop 1 else cs))).reverse :=
    fun s hs => unmarked_push file _ s (List.mem_reverse.mp hs)
  split
  · split
    · exact List.forall_mem_singleton.mpr List.not_mem_nil
    · exact fun s hs => h s ((List.dropWhile_sublist _).mem hs)
  · exact h

/-- The path that replaces the one of a URL has no mark of a query in it. -/
theorem not_mem_replace (special file : Bool) (cs : List Char) : '?' ∉ replace special file cs := by
  simp only [replace]
  split
  · exact List.not_mem_nil
  · exact not_mem_ofText _ _ _

end Path

end MetricsQuery.Url
