import Mathlib.Tactic.IntervalCases
import Triage.Text.Utf8

set_option autoImplicit true

namespace Triage.Text.Utf8

theorem lead?_two (h₁ : 2 ≤ k) (h₂ : k < 0x20) :
    lead? (0xC0 + k).toUInt8 = some ⟨k, 1, 0x80, 0xBF⟩ := by
  interval_cases k <;> rfl

theorem lead?_three (h : k < 0x10) : lead? (0xE0 + k).toUInt8 =
    some ⟨k, 2, if k = 0 then 0xA0 else 0x80, if k = 0xD then 0x9F else 0xBF⟩ := by
  interval_cases k <;> rfl

theorem lead?_four (h : k < 5) : lead? (0xF0 + k).toUInt8 =
    some ⟨k, 3, if k = 0 then 0x90 else 0x80, if k = 4 then 0x8F else 0xBF⟩ := by
  interval_cases k <;> rfl

namespace Reader

theorem push_lead (hn : 0x80 ≤ n ∧ n < 0x100) (hl : lead? n.toUInt8 = some ⟨bits, more, low, high⟩)
    (r : List Char) : push ⟨r, .none⟩ n.toUInt8 = ⟨r, .lacking bits more low high⟩ := by
  have hb : n.toUInt8.toNat = n := Nat.mod_eq_of_lt hn.2
  simp only [push, start, hb, if_neg (Nat.not_lt.mpr hn.1), hl]

theorem push_lacking (hk : k < 0x40) (hr : low ≤ 0x80 + k ∧ 0x80 + k ≤ high) (r : List Char) :
    push ⟨r, .lacking value more low high⟩ (0x80 + k).toUInt8 =
      if more ≤ 1 then ⟨.ofNat (value * 0x40 + k) :: r, .none⟩
      else ⟨r, .lacking (value * 0x40 + k) (more - 1) 0x80 0xBF⟩ := by
  have hb : (0x80 + k).toUInt8.toNat = 0x80 + k := Nat.mod_eq_of_lt (by omega)
  have hm : (0x80 + k) % 0x40 = k := by omega
  simp only [push, hb, if_pos hr, hm]

theorem foldl_encodeChar (c : Char) (r : List Char) :
    (encodeChar c).foldl push ⟨r, .none⟩ = ⟨c :: r, .none⟩ := by
  have hv : c.toNat < 0xD800 ∨ 0xDFFF < c.toNat ∧ c.toNat < 0x110000 := c.valid
  have hc (n : Nat) (h : n = c.toNat) : Char.ofNat n = c := by rw [h, Char.ofNat_toNat]
  unfold encodeChar
  simp only
  split
  next h =>
    have hb : c.toNat.toUInt8.toNat = c.toNat := Nat.mod_eq_of_lt (by omega)
    simp only [List.foldl_cons, List.foldl_nil, push, start, hb, if_pos h, hc]
  split
  next h =>
    have hl := lead?_two (k := c.toNat / 0x40) (by omega) (by omega)
    simp only [List.foldl_cons, List.foldl_nil]
    rw [push_lead (by omega) hl, push_lacking (by omega) (by omega), if_pos (by omega),
      hc _ (by omega)]
  split
  next h =>
    have hl := lead?_three (k := c.toNat / 0x1000) (by omega)
    simp only [List.foldl_cons, List.foldl_nil]
    rw [push_lead (by omega) hl, push_lacking (by omega) (by split <;> split <;> omega),
      if_neg (by omega), push_lacking (by omega) (by omega), if_pos (by omega), hc _ (by omega)]
  next h =>
    have hl := lead?_four (k := c.toNat / 0x40000) (by omega)
    simp only [List.foldl_cons, List.foldl_nil]
    rw [push_lead (by omega) hl, push_lacking (by omega) (by split <;> split <;> omega),
      if_neg (by omega), push_lacking (by omega) (by omega), if_neg (by omega),
      push_lacking (by omega) (by omega), if_pos (by omega), hc _ (by omega)]

theorem foldl_encode (s r : List Char) :
    (encode s).foldl push ⟨r, .none⟩ = ⟨s.reverse ++ r, .none⟩ := by
  induction s generalizing r with
  | nil => rfl
  | cons c s ih =>
    have h := ih (c :: r)
    rw [encode] at h ⊢
    rw [List.flatMap_cons, List.foldl_append, foldl_encodeChar, h, List.reverse_cons,
      List.append_assoc]
    rfl

end Reader

theorem decode_encode (s : List Char) : decode (encode s) = s := by
  rw [decode, Reader.foldl_encode, List.append_nil, Reader.finish, List.reverse_reverse]

end Triage.Text.Utf8
