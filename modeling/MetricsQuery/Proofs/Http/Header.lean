import MetricsQuery.Http.Header
import MetricsQuery.Proofs.Url.Form

/-!
# Values of headers

A text can be the value of a header exactly if each of its characters is a tab or no control
(`Legal`, `isLegal_iff`), so a value has no line break in it (`Legal.isUnbroken`). A text that is
form-encoded can always be one (`isLegal_encodeText`).
-/

namespace MetricsQuery

namespace Header

/-- A character that the value of a header may have: a tab, or one that is no control. -/
def IsLegalChar (c : Char) : Prop := c = '\t' ∨ 0x20 ≤ c.toNat ∧ c.toNat ≠ 0x7F

instance (c : Char) : Decidable (IsLegalChar c) := inferInstanceAs (Decidable (_ ∨ _))

/-- A text that can be the value of a header. -/
def Legal (value : String) : Prop := ∀ c ∈ value.toList, IsLegalChar c

/-- A text on one line, with no NUL in it. -/
def IsUnbroken (s : String) : Prop := ∀ c ∈ s.toList, c ≠ '\r' ∧ c ≠ '\n' ∧ c ≠ '\x00'

theorem isLegalByte_iff : ∀ n < 0x80,
    isLegalByte (UInt8.ofNat n) = true ↔ n = 9 ∨ 0x20 ≤ n ∧ n ≠ 0x7F := by
  decide

theorem isLegalByte_of_le {b : UInt8} (h : 0x80 ≤ b.toNat) : isLegalByte b = true := by
  simp only [isLegalByte, Bool.or_eq_true, Bool.and_eq_true, decide_eq_true_eq, bne_iff_ne,
    beq_iff_eq, UInt8.le_iff_toNat_le]
  refine .inr ⟨?_, ?_⟩
  · show 0x20 ≤ b.toNat
    omega
  · rintro rfl
    exact absurd h (by decide)

/-- A character is legal if all of its bytes are. -/
theorem all_utf8EncodeChar_iff (c : Char) :
    (String.utf8EncodeChar c).all isLegalByte = true ↔ IsLegalChar c := by
  have htab : c = '\t' ↔ c.toNat = 9 :=
    ⟨fun h => h ▸ rfl, fun h => (Char.ofNat_toNat c).symm.trans (h ▸ rfl)⟩
  rw [IsLegalChar, htab]
  rcases Nat.lt_or_ge c.toNat 0x80 with hlt | hge
  · have hbytes := Utf8.utf8EncodeChar_ofNat hlt
    rw [Char.ofNat_toNat] at hbytes
    rw [hbytes, List.all_cons, List.all_nil, Bool.and_true, isLegalByte_iff _ hlt]
  · have hall : (String.utf8EncodeChar c).all isLegalByte = true :=
      List.all_eq_true.mpr fun b hb => isLegalByte_of_le (Utf8.le_of_mem_utf8EncodeChar hge hb)
    exact iff_of_true hall (.inr (by omega))

theorem isLegal_iff (value : String) : isLegal value = true ↔ Legal value := by
  rw [isLegal, Utf8.encode, List.all_flatMap, List.all_eq_true]
  exact forall₂_congr fun c _ => all_utf8EncodeChar_iff c

theorem Legal.isUnbroken {value : String} (h : Legal value) : IsUnbroken value := by
  refine fun c hc => ⟨?_, ?_, ?_⟩ <;> rintro rfl <;> exact absurd (h _ hc) (by decide)

/-! ## Form-encoded values -/

theorem isLegalByte_of_isPlain {b : UInt8} (h : Url.Form.isPlain b = true) :
    isLegalByte b = true := by
  have hplain : ∀ n < 0x80, Url.Form.isPlain (UInt8.ofNat n) = true →
      isLegalByte (UInt8.ofNat n) = true := by decide
  rcases Nat.lt_or_ge b.toNat 0x80 with hlt | hge
  · have hb := hplain b.toNat hlt
    rw [UInt8.ofNat_toNat] at hb
    exact hb h
  · exact isLegalByte_of_le hge

theorem isLegalByte_digitByte : ∀ n < 16, isLegalByte (Url.Percent.digitByte n) = true := by decide

theorem all_formBytes (b : UInt8) : (Url.Form.formBytes b).all isLegalByte = true := by
  rcases Url.Form.formBytes_cases b with ⟨hp, hbytes⟩ | ⟨-, hbytes⟩ | ⟨m, hm, n, hn, -, hbytes⟩ <;>
    rw [hbytes]
  · rw [List.all_cons, isLegalByte_of_isPlain hp]
    rfl
  · decide
  · rw [List.all_cons, List.all_cons, List.all_cons, isLegalByte_digitByte m hm,
      isLegalByte_digitByte n hn]
    rfl

/-- A text that is form-encoded can be the value of a header, whatever text it is. -/
theorem isLegal_encodeText (s : String) :
    isLegal (String.ofList (Url.Form.encodeText s)) = true := by
  rw [isLegal, Url.Form.encode_encodeText, List.all_flatMap]
  exact List.all_eq_true.mpr fun b _ => all_formBytes b

end Header

end MetricsQuery
