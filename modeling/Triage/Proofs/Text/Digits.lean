import Triage.Text.Blank
import Triage.Text.Rounding

set_option autoImplicit true

namespace Triage.Text

theorem not_mem_toDigits {c : Char} (h : c.isDigit = false) : c ∉ Nat.toDigits 10 n := by
  intro hc
  rw [Nat.isDigit_of_mem_toDigits (by decide) (by decide) hc] at h
  cases h

theorem isBlank_of_isDigit {c : Char} (h : c.isDigit = true) : isBlank c = false := by
  obtain ⟨hl, hu⟩ : 48 ≤ c.toNat ∧ c.toNat ≤ 57 := Char.isDigit_iff_toNat.mp h
  simp only [isBlank, Bool.or_eq_false_iff, Bool.and_eq_false_iff, decide_eq_false_iff_not,
    beq_eq_false_iff_ne]
  omega

theorem isBlank_of_mem_toDigits (hc : c ∈ Nat.toDigits 10 n) : isBlank c = false :=
  isBlank_of_isDigit (Nat.isDigit_of_mem_toDigits (by decide) (by decide) hc)

theorem not_mem_toString {c : Char} (h : c.isDigit = false) (n : Nat) :
    c ∉ (toString n).toList := by
  rw [Nat.toString_eq_repr, Nat.toList_repr]
  exact not_mem_toDigits h

theorem Ratio.not_mem_fixed {c : Char} (hd : c.isDigit = false) (hp : c ≠ '.') (places : Nat)
    (x : Ratio) : c ∉ (x.fixed places).toList := by
  have hz : c ≠ '0' := by
    rintro rfl
    cases hd
  unfold fixed
  split
  next => exact not_mem_toString hd _
  next =>
    have hs : ".".toList = ['.'] := rfl
    simp only [String.toList_append, String.toList_ofList, hs, List.mem_append, List.mem_singleton,
      List.mem_replicate, not_or]
    exact ⟨⟨⟨not_mem_toString hd _, hp⟩, fun h => hz h.2⟩, not_mem_toString hd _⟩

end Triage.Text
