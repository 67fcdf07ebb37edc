import Triage.Finding.Json
import Triage.Proofs.Json.Shapes

set_option autoImplicit true

namespace Triage

open Json

namespace Status

theorem ofText_eq_ok : ofText s = .ok t ↔ s = t.name := by
  constructor
  · intro h
    unfold ofText at h
    split at h
    · next hn =>
      cases h
      exact (name_of_ofName? hn).symm
    · cases h
  · rintro rfl
    rw [ofText, ofName?_name]

/-- The value is the name of the status, or an object that has the name as its only key and `null`
beside it. -/
inductive Spelled : List Char → Status → Prop
  | name (h : IsText v s.name) : Spelled v s
  | object (hm : Member.Spaced m) (hk : Spells m.key s.name) (hv : m.value = ['n', 'u', 'l', 'l']) :
      Spelled (bracketed '{' '}' [] [m.item]) s

theorem readNothing_value (hv : WellFormed v) (hw : White w) :
    readNothing (w ++ (v ++ rest)) = .ok r ↔ v = ['n', 'u', 'l', 'l'] ∧ r = rest := by
  rw [readNothing, skipSpace_value hv hw]
  obtain rfl | ⟨c, t, rfl, hc⟩ := hv.null_or
  · change Except.ok rest = Except.ok r ↔ _
    simp [eq_comm]
  · rw [List.cons_append]
    split
    · next he => cases he; exact absurd rfl hc
    · exact ⟨nofun, fun h => absurd (List.cons.inj h.1).1 hc⟩

theorem read_text (hb : Body b ps) :
    read ('"' :: (b ++ '"' :: rest)) = .ok (s, r) ↔ Spells b s.name ∧ r = rest := by
  rw [read, skipSpace_cons (by decide)]
  simp only [bind_eq_ok, Prod.exists, readQuoted_iff hb, ofText_eq_ok]
  constructor
  · rintro ⟨t, _, ⟨hk, rfl⟩, _, ht, hp⟩
    cases hp
    exact ⟨ht ▸ hk, rfl⟩
  · rintro ⟨hk, rfl⟩
    exact ⟨s.name.toList, r, ⟨String.ofList_toList.symm ▸ hk, rfl⟩, s, String.ofList_toList, rfl⟩

theorem read_members (hm : Member.Spaced m) (hv : WellFormed m.value) (is : List Item) :
    read ('{' :: (m.item.lead ++ (m.item.core ++ (m.item.trail ++ after '}' is rest)))) =
        .ok (s, r) ↔
      Spells m.key s.name ∧ m.value = ['n', 'u', 'l', 'l'] ∧ is = [] ∧ r = rest := by
  obtain ⟨ps, hb⟩ := hm.key
  rw [Member.item_append, read, skipSpace_cons (by decide)]
  simp only [bind_eq_ok, Prod.exists, readText_quoted hb hm.lead, ofText_eq_ok]
  constructor
  · rintro ⟨t, _, ⟨hk, rfl⟩, _, rfl, _, he, _, hn, _, hx, hp⟩
    rw [expect_append hm.gap, expect_cons (by decide)] at he
    cases he
    obtain ⟨hnull, rfl⟩ := (readNothing_value hv hm.ahead).mp hn
    obtain ⟨hi, rfl⟩ := (expect_after (.inr rfl) hm.trail is rest).mp hx
    cases hp
    exact ⟨hk, hnull, hi, rfl⟩
  · rintro ⟨hk, hn, rfl, rfl⟩
    refine ⟨_, _, ⟨hk, rfl⟩, s, rfl, _, ?_, _, (readNothing_value hv hm.ahead).mpr ⟨hn, rfl⟩, _,
      (expect_after (.inr rfl) hm.trail [] r).mpr ⟨rfl, rfl⟩, rfl⟩
    rw [expect_append hm.gap, expect_cons (by decide)]

theorem read_empty (hw : White w) (rest : List Char) :
    ∃ f, read ('{' :: (w ++ '}' :: rest)) = .error f := by
  rw [read, skipSpace_cons (by decide)]
  simp only [readText, skipSpace_append hw, skipSpace_cons (c := '}') (by decide)]
  exact ⟨_, rfl⟩

theorem read_other (hs : isSpace c = false) (hq : c ≠ '"') (hb : c ≠ '{') (t : List Char) :
    read (c :: t) = .error .malformed := by
  rw [read, skipSpace_cons hs]
  split
  · next he => cases he
  · next he => cases he; exact absurd rfl hq
  · next he => cases he; exact absurd rfl hb
  · rfl

theorem read_spelled (h : Spelled v s) (rest : List Char) : read (v ++ rest) = .ok (s, rest) := by
  cases h with
  | name h =>
    obtain ⟨b, rfl, hk⟩ := h
    have ⟨ps, hb, _⟩ := hk
    rw [List.cons_append, List.append_assoc]
    exact (read_text hb).mpr ⟨hk, rfl⟩
  | object hm hk hv =>
    rw [bracketed_cons_append]
    exact (read_members hm (hv ▸ .null) []).mpr ⟨hk, hv, rfl, rfl⟩

theorem spelled_of_read (hv : WellFormed v) (h : read (v ++ rest) = .ok (s, r)) :
    Spelled v s ∧ r = rest := by
  -- `Spelled` cannot be taken apart by the text, so each shape is read as far as it goes.
  have ⟨c', t', he, hs, _⟩ := hv.head
  obtain rfl | ⟨b, ps, rfl, hb⟩ | ⟨⟨w, ms, hw, hm, hms⟩, rfl⟩ | ⟨c, t, rfl, -, hq, hc⟩ := hv.shape
  · rw [List.cons_append, read_other (by decide) (by decide) (by decide)] at h
    cases h
  · rw [List.cons_append, List.append_assoc] at h
    exact ((read_text hb).mp h).imp_left fun hk => .name (isText_iff.mpr hk)
  · rw [Object.chars] at *
    cases ms with
    | nil =>
      obtain ⟨f, hf⟩ := read_empty hw rest
      rw [List.map_nil, bracketed_nil_append, hf] at h
      cases h
    | cons m ms =>
      have hl := List.mem_cons_self (a := m) (l := ms)
      rw [List.map_cons, bracketed_cons_append, read_members (hm m hl) (hms m hl)] at h
      obtain ⟨hk, hn, hi, rfl⟩ := h
      cases List.map_eq_nil_iff.mp hi
      exact ⟨.object (hm m hl) hk hn, rfl⟩
  · cases he
    rw [List.cons_append, read_other hs hq hc] at h
    cases h

theorem reads_read : Reads read Spelled := by
  intro v w rest s r hv hw _
  have hs : read (w ++ (v ++ rest)) = read (v ++ rest) := by
    rw [read, read, skipSpace_append hw]
  rw [hs]
  refine ⟨spelled_of_read hv, ?_⟩
  rintro ⟨h, rfl⟩
  exact read_spelled h r

end Status
end Triage
