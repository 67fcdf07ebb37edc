import Mathlib.Data.List.Basic
import Triage.Proofs.Json.Grammar

set_option autoImplicit true

namespace Triage.Json

theorem hexValue?_lt (h : hexValue? c = some n) : n < 16 := by
  unfold hexValue? at h
  grind

theorem unit?_lt (h : unit? x₁ x₂ x₃ x₄ = some n) : n < 0x10000 := by
  simp only [unit?, Option.bind_eq_bind, Option.bind_eq_some_iff, Option.pure_def,
    Option.some.injEq] at h
  obtain ⟨a, ha, b, hb, c, hc, d, hd, rfl⟩ := h
  have ha := hexValue?_lt ha
  have hb := hexValue?_lt hb
  have hc := hexValue?_lt hc
  have hd := hexValue?_lt hd
  omega

theorem isLowUnit_iff : isLowUnit n = true ↔ 0xDC00 ≤ n ∧ n ≤ 0xDFFF := by
  simp only [isLowUnit, Bool.and_eq_true, decide_eq_true_eq]

theorem isHighUnit_iff : isHighUnit n = true ↔ 0xD800 ≤ n ∧ n ≤ 0xDBFF := by
  simp only [isHighUnit, Bool.and_eq_true, decide_eq_true_eq]

theorem isLowUnit_eq_false (h : n < 0xDC00 ∨ 0xDFFF < n) : isLowUnit n = false := by
  rw [Bool.eq_false_iff, ne_eq, isLowUnit_iff]
  omega

theorem isHighUnit_eq_false (h : n < 0xD800 ∨ 0xDBFF < n) : isHighUnit n = false := by
  rw [Bool.eq_false_iff, ne_eq, isHighUnit_iff]
  omega

theorem not_surrogate (c : Char) : c.toNat < 0xD800 ∨ 0xDFFF < c.toNat ∧ c.toNat < 0x110000 :=
  c.valid

theorem toNat_ofNat (h : n < 0xD800 ∨ 0xDFFF < n ∧ n < 0x110000) : (Char.ofNat n).toNat = n := by
  rw [Char.ofNat, dif_pos h]
  rfl

theorem piecesFrom_body (h : Body b ps) (read : List Piece) (rest : List Char) :
    piecesFrom read (b ++ '"' :: rest) = (read.reverse ++ ps, .ok rest) := by
  induction h generalizing read with
  | nil => rw [List.nil_append, piecesFrom, List.append_nil]
  | plain hq hb hc h ih =>
    rw [List.cons_append, piecesFrom, if_neg (Nat.not_lt.mpr hc), ih, List.reverse_cons,
      List.append_assoc]
    · rfl
    · exact hq
    · exact fun h => absurd h hb
    · exact fun _ _ _ _ _ h => absurd h hb
    · exact fun _ _ h => absurd h hb
  | @short e c b ps he h ih =>
    have hu : e ≠ 'u' := by
      rintro rfl
      cases he
    rw [List.cons_append, List.cons_append, piecesFrom, he]
    · simp only [ih, List.reverse_cons, List.append_assoc]
      rfl
    · exact fun _ _ _ _ _ h => absurd h hu
  | unit hu h ih =>
    simp only [List.cons_append]
    rw [piecesFrom, hu]
    simp only [ih, List.reverse_cons, List.append_assoc]
    rfl

theorem Body.unit_lt (h : Body b ps) (hn : .unit n ∈ ps) : n < 0x10000 := by
  induction h with
  | nil => cases hn
  | plain _ _ _ _ ih | short _ _ ih =>
    cases hn with
    | tail _ hn => exact ih hn
  | unit hu _ ih =>
    cases hn with
    | head => exact unit?_lt hu
    | tail _ hn => exact ih hn

theorem joinFrom_unit (hl : isLowUnit n = false) (hh : isHighUnit n = false) (read : List Char)
    (ps : List Piece) : joinFrom read (.unit n :: ps) = joinFrom (Char.ofNat n :: read) ps := by
  rw [joinFrom.eq_def]
  simp only [hl, hh, Bool.false_eq_true, if_false]

theorem joinFrom_pair (hh : isHighUnit n = true) (hl : isLowUnit m = true) (read : List Char)
    (ps : List Piece) :
    joinFrom read (.unit n :: .unit m :: ps) =
      joinFrom (Char.ofNat (0x10000 + (n - 0xD800) * 0x400 + (m - 0xDC00)) :: read) ps := by
  have hn : isLowUnit n = false := by
    rw [isHighUnit_iff] at hh
    exact isLowUnit_eq_false (by omega)
  rw [joinFrom.eq_def]
  simp only [hn, hh, hl, Bool.false_eq_true, if_false, if_true]

theorem joinFrom_forms (h : Forms ps s) (read : List Char) :
    joinFrom read ps = .ok (some (read.reverse ++ s)) := by
  induction h generalizing read with
  | nil => rw [joinFrom, List.append_nil]
  | char h ih =>
    rw [joinFrom, ih, List.reverse_cons, List.append_assoc]
    rfl
  | @unit ps s c hc h ih =>
    have hs := not_surrogate c
    rw [joinFrom_unit (isLowUnit_eq_false (by omega)) (isHighUnit_eq_false (by omega)),
      Char.ofNat_toNat, ih, List.reverse_cons, List.append_assoc]
    rfl
  | @pair ps s c hc h ih =>
    have hs := not_surrogate c
    have he : 0x10000 + (0xD800 + (c.toNat - 0x10000) / 0x400 - 0xD800) * 0x400 +
        (0xDC00 + (c.toNat - 0x10000) % 0x400 - 0xDC00) = c.toNat := by omega
    rw [joinFrom_pair (isHighUnit_iff.mpr (by omega)) (isLowUnit_iff.mpr (by omega)), he,
      Char.ofNat_toNat, ih, List.reverse_cons, List.append_assoc]
    rfl

theorem Forms.of_unit (hn : n < 0x10000) (hl : isLowUnit n = false) (hh : isHighUnit n = false)
    (h : Forms ps s) : Forms (.unit n :: ps) (Char.ofNat n :: s) := by
  rw [Bool.eq_false_iff, ne_eq, isLowUnit_iff] at hl
  rw [Bool.eq_false_iff, ne_eq, isHighUnit_iff] at hh
  have hc : (Char.ofNat n).toNat = n := toNat_ofNat (by omega)
  have hf := Forms.unit (hc ▸ hn) h
  rwa [hc] at hf

theorem Forms.of_pair (hh : isHighUnit n = true) (hl : isLowUnit m = true) (h : Forms ps s) :
    Forms (.unit n :: .unit m :: ps)
      (Char.ofNat (0x10000 + (n - 0xD800) * 0x400 + (m - 0xDC00)) :: s) := by
  rw [isHighUnit_iff] at hh
  rw [isLowUnit_iff] at hl
  have hc := toNat_ofNat (n := 0x10000 + (n - 0xD800) * 0x400 + (m - 0xDC00)) (by omega)
  have hf := Forms.pair (Nat.le_trans (by omega) (Nat.le_of_eq hc.symm)) h
  rwa [hc, show 0xD800 + (0x10000 + (n - 0xD800) * 0x400 + (m - 0xDC00) - 0x10000) / 0x400 = n by
    omega, show 0xDC00 + (0x10000 + (n - 0xD800) * 0x400 + (m - 0xDC00) - 0x10000) % 0x400 = m by
    omega] at hf

theorem forms_of_joinFrom {read : List Char} (hu : ∀ n, .unit n ∈ ps → n < 0x10000)
    (h : joinFrom read ps = .ok (some t)) : ∃ s, Forms ps s ∧ t = read.reverse ++ s := by
  -- A unit of more than sixteen bits would be read as some character that it does not stand for.
  fun_induction joinFrom read ps generalizing t with
  | case1 read =>
    cases h
    exact ⟨[], .nil, (List.append_nil _).symm⟩
  | case2 read c ps ih =>
    obtain ⟨s, hs, rfl⟩ := ih (fun n hn => hu n (List.mem_cons_of_mem _ hn)) h
    exact ⟨c :: s, .char hs, by rw [List.reverse_cons, List.append_assoc]; rfl⟩
  | case3 | case4 | case5 | case7 => cases h
  | case6 read n hn hh m ps hl ih =>
    obtain ⟨s, hs, rfl⟩ := ih (fun k hk => hu k (by simp [hk])) h
    exact ⟨_ :: s, .of_pair hh hl hs, by rw [List.reverse_cons, List.append_assoc]; rfl⟩
  | case8 read n ps hl hh ih =>
    obtain ⟨s, hs, rfl⟩ := ih (fun k hk => hu k (List.mem_cons_of_mem _ hk)) h
    exact ⟨_ :: s, .of_unit (hu n List.mem_cons_self) (Bool.eq_false_iff.mpr hl)
      (Bool.eq_false_iff.mpr hh) hs, by rw [List.reverse_cons, List.append_assoc]; rfl⟩

theorem skipQuoted_body (h : Body b ps) (rest : List Char) :
    skipQuoted (b ++ '"' :: rest) = .ok rest := by
  rw [skipQuoted, pieces, piecesFrom_body h]

theorem readQuoted_body_iff (h : Body b ps) :
    readQuoted (b ++ '"' :: rest) = .ok (s, r) ↔ Forms ps s ∧ r = rest := by
  rw [readQuoted, pieces, piecesFrom_body h, List.reverse_nil, List.nil_append]
  constructor
  · intro hr
    cases ht : joinFrom [] ps with
    | error => simp [ht] at hr
    | ok t =>
      cases t with
      | none => simp [ht] at hr
      | some t =>
        obtain ⟨u, hu, rfl⟩ := forms_of_joinFrom (fun n hn => h.unit_lt hn) ht
        simp only [ht, Except.ok.injEq, Prod.mk.injEq] at hr
        obtain ⟨rfl, rfl⟩ := hr
        exact ⟨hu, rfl⟩
  · rintro ⟨hs, rfl⟩
    simp only [joinFrom_forms hs, List.reverse_nil, List.nil_append]

theorem Body.pieces_eq (h : Body b ps) (h' : Body b ps') : ps = ps' := by
  have he := (piecesFrom_body h [] []).symm.trans (piecesFrom_body h' [] [])
  exact congrArg Prod.fst he

theorem readQuoted_iff (h : Body b ps) :
    readQuoted (b ++ '"' :: rest) = .ok (s, r) ↔ Spells b (String.ofList s) ∧ r = rest := by
  rw [readQuoted_body_iff h, Spells, String.toList_ofList]
  refine and_congr_left fun _ => ⟨fun hs => ⟨ps, h, hs⟩, ?_⟩
  rintro ⟨ps', h', hs⟩
  rwa [h.pieces_eq h']

theorem Spells.unique (h : Spells b s) (h' : Spells b t) : s = t := by
  obtain ⟨ps, hb, hs⟩ := h
  obtain ⟨ps', hb', ht⟩ := h'
  obtain rfl := hb.pieces_eq hb'
  have he := (joinFrom_forms hs []).symm.trans (joinFrom_forms ht [])
  simp only [List.reverse_nil, List.nil_append, Except.ok.injEq, Option.some.injEq] at he
  exact String.toList_injective he

end Triage.Json
