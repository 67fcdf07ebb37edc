import Triage.Proofs.Json.Skip

set_option autoImplicit true

namespace Triage.Json

theorem bind_eq_ok {x : Except Fault α} {f : α → Except Fault β} :
    (x >>= f) = .ok b ↔ ∃ a, x = .ok a ∧ f a = .ok b := by
  cases x with
  | error => exact ⟨nofun, fun ⟨_, h, _⟩ => nomatch h⟩
  | ok a => exact ⟨fun h => ⟨a, rfl, h⟩, fun ⟨_, h, hf⟩ => Except.ok.inj h ▸ hf⟩

theorem map_eq_ok {x : Except Fault α} {f : α → β} :
    x.map f = .ok b ↔ ∃ a, x = .ok a ∧ f a = b := by
  cases x with
  | error => exact ⟨nofun, fun ⟨_, h, _⟩ => nomatch h⟩
  | ok a =>
    refine ⟨fun h => ⟨a, rfl, Except.ok.inj h⟩, fun ⟨_, h, hf⟩ => ?_⟩
    cases h
    exact congrArg Except.ok hf

theorem WellFormed.shape (h : WellFormed v) :
    v = ['n', 'u', 'l', 'l'] ∨ (∃ b ps, v = '"' :: (b ++ ['"']) ∧ Body b ps) ∨
      (∃ o : Object, v = o.chars) ∨ ∃ c t, v = c :: t ∧ c ≠ 'n' ∧ c ≠ '"' ∧ c ≠ '{' := by
  cases h with
  | null => exact .inl rfl
  | text hb => exact .inr (.inl ⟨_, _, rfl, hb⟩)
  | object hw hs hv => exact .inr (.inr (.inl ⟨⟨_, _, hw, hs, hv⟩, rfl⟩))
  | isTrue | isFalse | negative | list =>
    exact .inr (.inr (.inr ⟨_, _, rfl, by decide, by decide, by decide⟩))
  | positive hm =>
    obtain ⟨c, t, rfl, hc⟩ := hm.head
    refine .inr (.inr (.inr ⟨c, t, rfl, ?_, ?_, ?_⟩)) <;>
    · rintro rfl
      cases hc

/-- Of the values of the grammar, `read` takes those that say something by `P`, and nothing that
follows them. -/
def Reads (read : List Char → Except Fault (α × List Char)) (P : List Char → α → Prop) : Prop :=
  ∀ {v w rest a r}, WellFormed v → White w → Stops rest →
    (read (w ++ (v ++ rest)) = .ok (a, r) ↔ P v a ∧ r = rest)

theorem Reads.unspaced {read : List Char → Except Fault (α × List Char)} (h : Reads read P)
    (hv : WellFormed v) (hr : Stops rest) : read (v ++ rest) = .ok (a, r) ↔ P v a ∧ r = rest :=
  h hv .nil hr

def IsText (v : List Char) (s : String) : Prop := ∃ b, v = '"' :: (b ++ ['"']) ∧ Spells b s

def IsText? (v : List Char) : Option String → Prop
  | none => v = ['n', 'u', 'l', 'l']
  | some s => IsText v s

theorem isText_iff : IsText ('"' :: (b ++ ['"'])) s ↔ Spells b s := by
  constructor
  · rintro ⟨b', he, hs⟩
    rw [List.cons.injEq, List.append_left_inj] at he
    rwa [he.2]
  · exact fun hs => ⟨b, rfl, hs⟩

theorem IsText.unique (h : IsText v s) (h' : IsText v t) : s = t := by
  obtain ⟨b, rfl, hs⟩ := h
  exact hs.unique (isText_iff.mp h')

theorem readText_quoted (hb : Body b ps) (hw : White w) :
    readText (w ++ '"' :: (b ++ '"' :: rest)) = .ok (s, r) ↔ Spells b s ∧ r = rest := by
  rw [readText, skipSpace_append hw, skipSpace_cons (by decide)]
  simp only [map_eq_ok, Prod.exists, Prod.mk.injEq]
  constructor
  · rintro ⟨t, r, ht, rfl, rfl⟩
    exact (readQuoted_iff hb).mp ht
  · intro hs
    rw [← String.ofList_toList (s := s)] at hs
    exact ⟨s.toList, r, (readQuoted_iff hb).mpr hs, String.ofList_toList, rfl⟩

theorem not_isText (hq : c ≠ '"') (t : List Char) (s : String) : ¬ IsText (c :: t) s :=
  fun ⟨_, he, _⟩ => hq (List.cons.inj he).1

theorem WellFormed.text_or (h : WellFormed v) :
    (∃ b ps, v = '"' :: (b ++ ['"']) ∧ Body b ps) ∨ ∃ c t, v = c :: t ∧ c ≠ '"' := by
  obtain rfl | hb | ⟨o, rfl⟩ | ⟨c, t, rfl, -, hq, -⟩ := h.shape
  · exact .inr ⟨_, _, rfl, by decide⟩
  · exact .inl hb
  · exact .inr ⟨_, _, rfl, by decide⟩
  · exact .inr ⟨c, t, rfl, hq⟩

theorem reads_readText : Reads readText IsText := by
  intro v w rest s r hv hw hr
  obtain ⟨b, ps, rfl, hb⟩ | ⟨c, t, rfl, hc⟩ := hv.text_or
  · rw [isText_iff, List.cons_append, List.append_assoc]
    exact readText_quoted hb hw
  · rw [readText, skipSpace_value hv hw, List.cons_append]
    split
    · next he => cases he; exact absurd rfl hc
    · constructor
      · intro h
        cases h
      · exact fun h => absurd h.1 (not_isText hc t s)

theorem WellFormed.null_or (h : WellFormed v) :
    v = ['n', 'u', 'l', 'l'] ∨ ∃ c t, v = c :: t ∧ c ≠ 'n' := by
  obtain rfl | ⟨b, ps, rfl, -⟩ | ⟨o, rfl⟩ | ⟨c, t, rfl, hn, -⟩ := h.shape
  · exact .inl rfl
  · exact .inr ⟨_, _, rfl, by decide⟩
  · exact .inr ⟨_, _, rfl, by decide⟩
  · exact .inr ⟨c, t, rfl, hn⟩

theorem reads_readText? : Reads readText? IsText? := by
  intro v w rest o r hv hw hr
  have ht : ∀ s, readText (v ++ rest) = .ok (s, r) ↔ IsText v s ∧ r = rest :=
    fun _ => reads_readText.unspaced hv hr
  rw [readText?, skipSpace_value hv hw]
  obtain rfl | ⟨c, t, rfl, hc⟩ := hv.null_or
  · have hn := not_isText (c := 'n') (by decide) ['u', 'l', 'l']
    change Except.ok (none, rest) = Except.ok (o, r) ↔ _
    cases o with
    | none => simp [IsText?, eq_comm]
    | some s => simp [IsText?, hn]
  · have hn : ¬ IsText? (c :: t) none := fun he => hc (List.cons.inj he).1
    rw [List.cons_append] at *
    split
    · next he => cases he; exact absurd rfl hc
    · cases o with
      | none => simp [map_eq_ok, hn]
      | some s => simp [map_eq_ok, ht, IsText?]

theorem expect_append (hw : White w) (c : Char) (s : List Char) :
    expect c (w ++ s) = expect c s := by
  rw [expect, expect, skipSpace_append hw]

theorem expect_after (hc : closing = ']' ∨ closing = '}') (hw : White w) (is : List Item)
    (rest : List Char) :
    expect closing (w ++ after closing is rest) = .ok r ↔ is = [] ∧ r = rest := by
  rw [expect_append hw]
  cases is with
  | nil => obtain rfl | rfl := hc <;> simp [after, expect, skipSpace_cons, isSpace, eq_comm]
  | cons i is =>
    obtain rfl | rfl := hc <;> simp [after, expect, skipSpace_cons (c := ',') (by decide)]

end Triage.Json
