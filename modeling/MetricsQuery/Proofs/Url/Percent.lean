import MetricsQuery.Proofs.Text.Utf8
import MetricsQuery.Url.Percent

/-!
# What percent-encoding writes

Encoding keeps a text whose characters may all stand for themselves (`encode_of_kept`), and writes
only such characters, percent signs and uppercase hexadecimal digits (`mem_encode`). A text without
a percent sign is written for itself only (`eq_of_encode`).
-/

namespace MetricsQuery.Url.Percent

variable {p : Char → Bool}

@[simp] theorem encode_cons (p : Char → Bool) (c : Char) (cs : List Char) :
    encode p (c :: cs) = (if p c then escaped c else [c]) ++ encode p cs := List.flatMap_cons

theorem encode_of_kept {cs : List Char} (h : ∀ c ∈ cs, p c = false) : encode p cs = cs := by
  induction cs with
  | nil => rfl
  | cons c cs ih =>
    obtain ⟨hc, hcs⟩ := List.forall_mem_cons.mp h
    rw [encode_cons, hc, ih hcs]
    rfl

/-- An encoded character starts with a percent sign. -/
theorem escaped_eq_cons (c : Char) : ∃ cs, escaped c = '%' :: cs := by
  obtain ⟨b, bs, hb, -⟩ := Utf8.scan_utf8EncodeChar c []
  rw [List.append_nil] at hb
  exact ⟨_, by rw [escaped, hb, List.flatMap_cons, octet]; rfl⟩

/-- What is written for a text, if it has no percent sign, is the text. -/
theorem eq_of_encode {cs t : List Char} (ht : '%' ∉ t) (h : encode p cs = t) : cs = t := by
  induction cs generalizing t with
  | nil => exact h
  | cons c cs ih =>
    rw [encode_cons] at h
    split at h
    · obtain ⟨rest, hrest⟩ := escaped_eq_cons c
      rw [hrest] at h
      exact absurd (h ▸ List.mem_cons_self) ht
    · subst h
      exact congrArg (c :: ·) (ih (fun hm => ht (List.mem_cons_of_mem _ hm)) rfl)

/-- Where what is written has no percent sign, the text has the same character. -/
theorem eq_cons_of_encode {cs t : List Char} {c : Char} (hc : c ≠ '%')
    (h : encode p cs = c :: t) : ∃ rest, cs = c :: rest ∧ encode p rest = t := by
  cases cs with
  | nil => cases h
  | cons d rest =>
    rw [encode_cons] at h
    split at h
    · obtain ⟨tail, htail⟩ := escaped_eq_cons d
      rw [htail] at h
      exact absurd (List.cons.inj h).1.symm hc
    · obtain ⟨rfl, ht⟩ := List.cons.inj h
      exact ⟨rest, rfl, ht⟩

/-- The characters that are written for a text. -/
theorem mem_encode {cs : List Char} {c : Char} (h : c ∈ encode p cs) :
    (c ∈ cs ∧ p c = false) ∨ c = '%' ∨ ∃ n < 16, c = hexDigit n := by
  obtain ⟨d, hd, hc⟩ := List.mem_flatMap.mp h
  split at hc
  · obtain ⟨b, -, hb⟩ := List.mem_flatMap.mp hc
    have hlt := b.toNat_lt
    simp only [octet, List.mem_cons, List.not_mem_nil, or_false] at hb
    rcases hb with rfl | rfl | rfl
    · exact .inr (.inl rfl)
    · exact .inr (.inr ⟨_, by omega, rfl⟩)
    · exact .inr (.inr ⟨_, by omega, rfl⟩)
  · next hp =>
    obtain rfl := List.mem_singleton.mp hc
    exact .inl ⟨hd, Bool.eq_false_iff.mpr hp⟩

theorem hexDigit_ne_mark : ∀ n < 16, hexDigit n ≠ '?' := by decide

/-- A character that is encoded is not among the characters written for it. -/
theorem not_mem_encode (h : p '?' = true) (cs : List Char) : '?' ∉ encode p cs := by
  intro hm
  rcases mem_encode hm with ⟨-, hp⟩ | hp | ⟨n, hn, hp⟩
  · rw [h] at hp
    cases hp
  · exact absurd hp (by decide)
  · exact hexDigit_ne_mark n hn hp.symm

end MetricsQuery.Url.Percent
