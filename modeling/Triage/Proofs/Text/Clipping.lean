import Mathlib.Data.List.Basic
import Triage.Proofs.Text.Decoding
import Triage.Text.Clip

set_option autoImplicit true

namespace Triage.Text

namespace Utf8

def startsChar (b : UInt8) : Bool := !(0x80 ≤ b.toNat && b.toNat < 0xC0)

/-- How many bytes stand in front of the character with this number, if there is one. -/
def offset? : Nat → Bytes → Option Nat
  | _, [] => none
  | n, b :: bs =>
    if startsChar b then
      match n with
      | 0 => some 0
      | n + 1 => (offset? n bs).map (· + 1)
    else (offset? n bs).map (· + 1)

def clipBytes (limit : Nat) (bs : Bytes) : Bytes :=
  match offset? limit bs with
  | some cut => bs.take cut ++ encode clipMark
  | none => bs

theorem startsChar_lead (hl : n < 0x80 ∨ 0xC0 ≤ n) (hn : n < 0x100) :
    startsChar n.toUInt8 = true := by
  have hb : n.toUInt8.toNat = n := Nat.mod_eq_of_lt hn
  rw [startsChar, hb]
  simp
  omega

theorem startsChar_following (n : Nat) : startsChar (0x80 + n % 0x40).toUInt8 = false := by
  have hb : (0x80 + n % 0x40).toUInt8.toNat = 0x80 + n % 0x40 := Nat.mod_eq_of_lt (by omega)
  rw [startsChar, hb]
  simp
  omega

theorem encodeChar_eq_cons (c : Char) : ∃ b bs, encodeChar c = b :: bs ∧
    startsChar b = true ∧ ∀ x ∈ bs, startsChar x = false := by
  have hv : c.toNat < 0xD800 ∨ 0xDFFF < c.toNat ∧ c.toNat < 0x110000 := c.valid
  unfold encodeChar
  simp only
  repeat' split
  all_goals
    refine ⟨_, _, rfl, startsChar_lead (by omega) (by omega), ?_⟩
    simp only [List.forall_mem_cons, startsChar_following, List.not_mem_nil, false_imp_iff,
      implies_true, and_self]

theorem offset?_following (hb : startsChar b = false) (n : Nat) (bs : Bytes) :
    offset? n (b :: bs) = (offset? n bs).map (· + 1) := by
  simp [offset?, hb]

theorem offset?_zero (hb : startsChar b = true) (bs : Bytes) :
    offset? 0 (b :: bs) = some 0 := if_pos hb

theorem offset?_succ (hb : startsChar b = true) (n : Nat) (bs : Bytes) :
    offset? (n + 1) (b :: bs) = (offset? n bs).map (· + 1) := if_pos hb

theorem offset?_append {bs : Bytes} (hb : ∀ b ∈ bs, startsChar b = false) (n : Nat)
    (rest : Bytes) : offset? n (bs ++ rest) = (offset? n rest).map (· + bs.length) := by
  induction bs with
  | nil => simp
  | cons b bs ih =>
    have ih := ih fun x hx => hb x (List.mem_cons_of_mem b hx)
    rw [List.cons_append, offset?_following (hb b List.mem_cons_self), ih, Option.map_map]
    rfl

theorem encode_cons (c : Char) (s : List Char) : encode (c :: s) = encodeChar c ++ encode s :=
  List.flatMap_cons

theorem encode_append (s t : List Char) : encode (s ++ t) = encode s ++ encode t :=
  List.flatMap_append

theorem offset?_encode (n : Nat) (s : List Char) :
    offset? n (encode s) = if n < s.length then some (encode (s.take n)).length else none := by
  induction s generalizing n with
  | nil => rfl
  | cons c s ih =>
    obtain ⟨b, bs, hc, hb, hbs⟩ := encodeChar_eq_cons c
    rw [encode_cons, hc, List.cons_append]
    cases n with
    | zero => simp [offset?_zero hb, encode]
    | succ n =>
      rw [offset?_succ hb, offset?_append hbs, ih]
      simp only [List.length_cons, Nat.add_lt_add_iff_right]
      split
      · rw [List.take_succ_cons, encode_cons, hc, List.length_append, Nat.add_comm]
        rfl
      · rfl

theorem take_encode (n : Nat) (s : List Char) :
    (encode s).take (encode (s.take n)).length = encode (s.take n) := by
  have h : encode s = encode (s.take n) ++ encode (s.drop n) := by
    rw [← encode_append, List.take_append_drop]
  rw [h, List.take_left]

theorem encode_clip (limit : Nat) (s : List Char) :
    encode (clip limit s) = clipBytes limit (encode s) := by
  rw [clipBytes, offset?_encode]
  by_cases h : limit < s.length
  · rw [if_pos h, clip_of_lt_length h, encode_append]
    simp only [take_encode]
  · rw [if_neg h, clip_of_length_le (Nat.not_lt.mp h)]

end Utf8

theorem length_clip (h : limit < s.length) :
    (clip limit s).length = limit + clipMark.length := by
  rw [clip_of_lt_length h, List.length_append, List.length_take, Nat.min_eq_left (Nat.le_of_lt h)]

theorem clip_clip (h : n ≤ limit) (s : List Char) : clip n (clip limit s) = clip n s := by
  by_cases hs : limit < s.length
  · -- The mark makes the text longer than its limit, so that it is cut once more.
    have hn : n < (clip limit s).length := by
      rw [length_clip hs]
      exact Nat.lt_of_le_of_lt h (Nat.lt_add_of_pos_right (by decide))
    have ht : (clip limit s).take n = s.take n := by
      have hl : n ≤ (s.take limit).length := by
        rw [List.length_take]
        omega
      rw [clip_of_lt_length hs, List.take_append_of_le_length hl, List.take_take,
        Nat.min_eq_left h]
    rw [clip_of_lt_length hn, ht, clip_of_lt_length (Nat.lt_of_le_of_lt h hs)]
  · rw [clip_of_length_le (Nat.not_lt.mp hs)]

open Utf8

/-- The bytes of a text are cut in front of the character with the number of the limit, so that what is
kept are whole characters; the text stays as it is if it has none.  Clipping a text again, to the same
limit or to a smaller one, is clipping it once. -/
theorem clip_between_characters (limit : Nat) (s : List Char) :
    encode (clip limit s) = clipBytes limit (encode s) ∧
    (s.length ≤ limit → offset? limit (encode s) = none ∧ clip limit s = s) ∧
    (limit < s.length → ∃ cut, offset? limit (encode s) = some cut ∧
      decode ((encode s).take cut) = s.take limit ∧ clip limit s = s.take limit ++ clipMark) ∧
    clip limit (clip limit s) = clip limit s ∧
    ∀ n ≤ limit, clip n (clip limit s) = clip n s := by
  refine ⟨encode_clip limit s, ?_, ?_, clip_clip (Nat.le_refl limit) s, fun n h => clip_clip h s⟩
  · intro h
    exact ⟨by rw [offset?_encode, if_neg (Nat.not_lt.mpr h)], clip_of_length_le h⟩
  · intro h
    refine ⟨_, by rw [offset?_encode, if_pos h], ?_, clip_of_lt_length h⟩
    rw [take_encode, decode_encode]

example : clip 3 "ééé...(truncated)".toList = "ééé...(truncated)".toList := by decide

end Triage.Text
