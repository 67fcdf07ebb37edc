import Triage.Proofs.Finding.Keys

set_option autoImplicit true

namespace Triage.Finding

open Json

theorem nextItem_end (hw : White w) (first : Bool) (rest : List Char) :
    nextItem first (w ++ after ']' [] rest) = .ok none := by
  rw [nextItem, skipSpace_append hw, after, skipSpace_cons (by decide)]
  rfl

theorem nextItem_first {i : Item} (hi : i.Spaced) (hv : WellFormed i.core) (s : List Char) :
    nextItem true (i.lead ++ (i.core ++ s)) = .ok (some (i.core ++ s)) := by
  rw [nextItem, skipSpace_value hv hi.lead]
  obtain ⟨c, t, he, -, hc⟩ := hv.head
  rw [he]
  split
  · next he => cases he
  · next he => cases he; exact absurd rfl hc
  · next he => cases he; rfl

theorem nextItem_after {i : Item} (hw : White w) (hi : i.Spaced) (hv : WellFormed i.core)
    (is : List Item) (rest : List Char) :
    nextItem false (w ++ after ']' (i :: is) rest) =
      .ok (some (i.core ++ (i.trail ++ after ']' is rest))) := by
  have hs := skipSpace_value hv hi.lead (i.trail ++ after ']' is rest)
  obtain ⟨c, t, he, -, hc⟩ := hv.head
  rw [nextItem, skipSpace_append hw, after, skipSpace_cons (by decide)]
  rw [he, List.cons_append] at hs ⊢
  simp [hs, hc]

theorem reads_item {read : List Char → Except Fault (α × List Char)} {i : Item}
    (hp : Reads read P) (hi : i.Spaced) (hv : WellFormed i.core) (is : List Item)
    (rest : List Char) :
    read (i.core ++ (i.trail ++ after ']' is rest)) = .ok (a, r) ↔
      P i.core a ∧ r = i.trail ++ after ']' is rest :=
  hp hv .nil ((stops_after (.inl rfl) is rest).append hi.trail)

theorem readPositional_iff {i₁ i₂ i₃ : Item} {is : List Item}
    (h : ∀ i ∈ i₁ :: i₂ :: i₃ :: is, i.Spaced ∧ WellFormed i.core) :
    (∃ t, readPositional (i₁.lead ++ (i₁.core ++ (i₁.trail ++ after ']' (i₂ :: i₃ :: is) rest))) =
      .ok (f, t) ∧ expect ']' t = .ok r) ↔
      (IsText i₁.core f.file ∧ Status.Spelled i₂.core f.status ∧ IsText i₃.core f.message ∧
        OutputIs (is.map Item.core) f.output) ∧ r = rest := by
  simp only [List.forall_mem_cons] at h
  obtain ⟨⟨hs₁, hv₁⟩, ⟨hs₂, hv₂⟩, ⟨hs₃, hv₃⟩, h⟩ := h
  simp only [readPositional, nextItem_first hs₁ hv₁, reads_item reads_readText hs₁ hv₁,
    nextItem_after hs₁.trail hs₂ hv₂, reads_item Status.reads_read hs₂ hv₂,
    nextItem_after hs₂.trail hs₃ hv₃, reads_item reads_readText hs₃ hv₃, bind_eq_ok,
    Except.ok.injEq, Prod.exists, and_assoc, exists_and_left, exists_eq_left, exists_eq_left']
  -- The first three values are read whatever follows; only here it matters how many there are.
  cases is with
  | nil =>
    simp only [nextItem_end hs₃.trail, Except.ok.injEq, exists_eq_left', List.map_nil]
    constructor
    · rintro ⟨t, ⟨a, ha, b, hb, c, hc, hp⟩, ht⟩
      cases hp
      exact ⟨ha, hb, hc, .inl ⟨rfl, rfl⟩, ((expect_after (.inl rfl) hs₃.trail [] rest).mp ht).2⟩
    · rintro ⟨ha, hb, hc, ho, rfl⟩
      refine ⟨_, ⟨f.file, ha, f.status, hb, f.message, hc, ?_⟩,
        (expect_after (.inl rfl) hs₃.trail [] r).mpr ⟨rfl, rfl⟩⟩
      obtain ⟨-, ho⟩ | ⟨v, hv, -⟩ := ho
      · rw [← ho]
        rfl
      · cases hv
  | cons i is =>
    obtain ⟨hs, hv⟩ := h i List.mem_cons_self
    simp only [nextItem_after hs₃.trail hs hv, Except.ok.injEq, exists_eq_left', bind_eq_ok,
      Prod.exists, reads_item reads_readText? hs hv, and_assoc, exists_and_left, exists_eq_left]
    constructor
    · rintro ⟨t, ⟨a, ha, b, hb, c, hc, o, ho, hp⟩, ht⟩
      cases hp
      obtain ⟨rfl, rfl⟩ := (expect_after (.inl rfl) hs.trail is rest).mp ht
      exact ⟨ha, hb, hc, .inr ⟨i.core, rfl, ho⟩, rfl⟩
    · rintro ⟨ha, hb, hc, ⟨hn, -⟩ | ⟨v, he, ho⟩, rfl⟩
      · cases hn
      · rw [List.map_cons, List.cons.injEq, List.map_eq_nil_iff] at he
        obtain ⟨rfl, rfl⟩ := he
        exact ⟨_, ⟨f.file, ha, f.status, hb, f.message, hc, f.output, ho, rfl⟩,
          (expect_after (.inl rfl) hs.trail [] r).mpr ⟨rfl, rfl⟩⟩

theorem read_listing {l : Listing} (hl : l.values = v₁ :: v₂ :: v₃ :: vs) (hw : White w) :
    read (w ++ (l.chars ++ rest)) = .ok (f, r) ↔
      (IsText v₁ f.file ∧ Status.Spelled v₂ f.status ∧ IsText v₃ f.message ∧
        OutputIs vs f.output) ∧ r = rest := by
  obtain ⟨g, is, hg, hs, hv⟩ := l
  obtain ⟨i₁, _, rfl, rfl, h₂⟩ := List.map_eq_cons_iff.mp hl
  obtain ⟨i₂, _, rfl, rfl, h₃⟩ := List.map_eq_cons_iff.mp h₂
  obtain ⟨i₃, is, rfl, rfl, rfl⟩ := List.map_eq_cons_iff.mp h₃
  rw [← readPositional_iff fun i hi => ⟨hs i hi, hv i hi⟩, read, skipSpace_append hw,
    Listing.chars, bracketed_cons_append, skipSpace_cons (by decide)]
  simp only [bind_eq_ok, Prod.exists]
  constructor
  · rintro ⟨f', t, h, r', ht, hp⟩
    cases hp
    exact ⟨t, h, ht⟩
  · rintro ⟨t, h, ht⟩
    exact ⟨f, t, h, r, ht, rfl⟩

theorem ofJson_listing {l : Listing} (h : Holds s l.chars)
    (hl : l.values = v₁ :: v₂ :: v₃ :: vs) :
    ofJson s = .ok f ↔ IsText v₁ f.file ∧ Status.Spelled v₂ f.status ∧ IsText v₃ f.message ∧
      OutputIs vs f.output :=
  ofJson_iff (D := fun f => IsText v₁ f.file ∧ Status.Spelled v₂ f.status ∧ IsText v₃ f.message ∧
    OutputIs vs f.output) h (read_listing hl)

end Triage.Finding
