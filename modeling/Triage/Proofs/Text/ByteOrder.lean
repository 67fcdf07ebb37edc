import Mathlib.Data.List.Basic
import Triage.Text.Utf8

set_option autoImplicit true

namespace Triage.Text.Utf8

/-- Of two characters, the bytes of the smaller one are less at the first place where they are not
the same, so it does not matter what follows. -/
theorem lex_encodeChar_append (h : c < d) (x y : Bytes) :
    List.Lex (· < ·) (encodeChar c ++ x) (encodeChar d ++ y) := by
  have hn : c.toNat < d.toNat := h
  have hd : d.toNat < 0xD800 ∨ 0xDFFF < d.toNat ∧ d.toNat < 0x110000 := d.valid
  unfold encodeChar
  simp only
  repeat' split
  all_goals
    simp (disch := omega) only [List.cons_append, List.nil_append, List.cons_lex_cons_iff,
      UInt8.lt_iff_toNat_lt, ← UInt8.toNat_inj, UInt8.toNat_ofNat', Nat.toUInt8_eq,
      Nat.mod_eq_of_lt]
    omega

theorem encodeChar_ne_nil (c : Char) : encodeChar c ≠ [] := by
  unfold encodeChar
  simp only
  repeat' split
  all_goals exact List.cons_ne_nil _ _

theorem lex_append_left {r : α → α → Prop} (h : List.Lex r a b) (p : List α) :
    List.Lex r (p ++ a) (p ++ b) := by
  induction p with
  | nil => exact h
  | cons c p ih => exact .cons ih

theorem lex_encode_of_lex (h : List.Lex (· < ·) s t) :
    List.Lex (· < ·) (encode s) (encode t) := by
  induction h with
  | @nil c t =>
    obtain ⟨b, bs, hb⟩ := List.exists_cons_of_ne_nil (encodeChar_ne_nil c)
    rw [encode, encode, List.flatMap_cons, hb]
    exact .nil
  | rel h => exact lex_encodeChar_append h _ _
  | cons h ih => exact lex_append_left ih _

theorem lex_encode (s t : String) :
    List.Lex (· < ·) (encode s.toList) (encode t.toList) ↔ s < t := by
  constructor
  · intro h
    by_contra hn
    by_cases hl : t < s
    · exact List.lt_asymm h (lex_encode_of_lex hl)
    · rw [String.le_antisymm (String.not_lt.mp hl) (String.not_lt.mp hn)] at h
      exact List.lt_irrefl _ h
  · exact lex_encode_of_lex

end Triage.Text.Utf8
