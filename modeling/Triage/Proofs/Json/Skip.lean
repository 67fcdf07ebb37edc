import Mathlib.Data.List.DropRight
import Triage.Proofs.Json.Layout
import Triage.Proofs.Json.Spelling

set_option autoImplicit true

namespace Triage.Json

/-- Nothing at the start of `rest` would go on with a number. -/
def Stops (rest : List Char) : Prop :=
  ∀ c ∈ rest.head?, isDigit c = false ∧ c ≠ '.' ∧ c ≠ 'e' ∧ c ≠ 'E'

theorem stops_of_isSpace (h : isSpace c = true) (rest : List Char) : Stops (c :: rest) := by
  intro d hd
  cases hd
  simp only [isSpace, Bool.or_eq_true, decide_eq_true_eq] at h
  obtain ((rfl | rfl) | rfl) | rfl := h <;> decide

theorem Stops.append (hw : White w) (h : Stops rest) : Stops (w ++ rest) := by
  cases w with
  | nil => exact h
  | cons c w => exact stops_of_isSpace (hw c List.mem_cons_self) _

def after (closing : Char) : List Item → List Char → List Char
  | [], rest => closing :: rest
  | i :: is, rest => ',' :: (i.lead ++ (i.core ++ (i.trail ++ after closing is rest)))

theorem length_lt_after (closing : Char) (is : List Item) (rest : List Char) :
    is.length < (after closing is rest).length := by
  induction is with
  | nil => exact Nat.zero_lt_succ _
  | cons i is ih =>
    simp only [after, List.length_cons, List.length_append]
    omega

theorem bracketed_nil_append (opening closing : Char) (w rest : List Char) :
    bracketed opening closing w [] ++ rest = opening :: (w ++ closing :: rest) := by
  simp only [bracketed, List.isEmpty_nil, if_true, List.cons_append, List.append_assoc,
    List.nil_append]

theorem intercalate_chars_append (closing : Char) (i : Item) (is : List Item) (rest : List Char) :
    [','].intercalate ((i :: is).map Item.chars) ++ closing :: rest =
      i.lead ++ (i.core ++ (i.trail ++ after closing is rest)) := by
  induction is generalizing i with
  | nil => simp only [List.map_singleton, List.intercalate_singleton, Item.chars, after,
      List.append_assoc]
  | cons j is ih =>
    rw [List.map_cons, List.map_cons, List.intercalate_cons_cons, ← List.map_cons]
    simp only [List.append_assoc, ih, Item.chars, after]
    rfl

theorem bracketed_cons_append (opening closing : Char) (w : List Char) (i : Item) (is : List Item)
    (rest : List Char) :
    bracketed opening closing w (i :: is) ++ rest =
      opening :: (i.lead ++ (i.core ++ (i.trail ++ after closing is rest))) := by
  rw [← intercalate_chars_append, bracketed]
  simp only [List.isEmpty_cons, Bool.false_eq_true, if_false, List.cons_append, List.append_assoc,
    List.nil_append]

theorem stops_after (hc : closing = ']' ∨ closing = '}') (is : List Item) (rest : List Char) :
    Stops (after closing is rest) := by
  cases is with
  | nil =>
    rintro c ⟨⟩
    obtain rfl | rfl := hc <;> decide
  | cons i is =>
    rintro c ⟨⟩
    decide

section Numbers

variable {ds s rest : List Char}

theorem takeWhile_digits (hd : ∀ c ∈ ds, isDigit c = true) (hs : ∀ c ∈ s.head?, isDigit c = false) :
    (ds ++ s).takeWhile isDigit = ds ∧ (ds ++ s).dropWhile isDigit = s := by
  have ht : s.takeWhile isDigit = [] ∧ s.dropWhile isDigit = s := by
    cases s with
    | nil => exact ⟨rfl, rfl⟩
    | cons c s =>
      have hc := hs c rfl
      simp only [List.takeWhile_cons, List.dropWhile_cons, hc, Bool.false_eq_true, if_false,
        and_self]
  rw [List.takeWhile_append_of_pos hd, List.dropWhile_append_of_pos hd, ht.1, ht.2,
    List.append_nil]
  exact ⟨rfl, rfl⟩

theorem skipDigits (hd : Digits ds) (hs : ∀ c ∈ s.head?, isDigit c = false) :
    ((ds ++ s).takeWhile isDigit).isEmpty = false ∧ (ds ++ s).dropWhile isDigit = s := by
  obtain ⟨ht, hr⟩ := takeWhile_digits hd.2 hs
  rw [ht]
  exact ⟨List.isEmpty_eq_false_iff.mpr hd.1, hr⟩

theorem skipExponent_unsigned (hd : Digits ds) (h : Stops rest) :
    skipExponent (ds ++ rest) = .ok rest := by
  obtain ⟨ht, hr⟩ := skipDigits hd fun c hc => (h c hc).1
  obtain ⟨hn, hd⟩ := hd
  cases ds with
  | nil => exact absurd rfl hn
  | cons c ds =>
    have hc := hd c List.mem_cons_self
    rw [List.cons_append] at *
    unfold skipExponent
    split
    · next he => cases he; cases hc
    · next he => cases he; cases hc
    · simp only [ht, hr, Bool.false_eq_true, if_false]

theorem skipExponent_signed {sign : Char} (hs : sign = '+' ∨ sign = '-') (hd : Digits ds)
    (h : Stops rest) : skipExponent (sign :: (ds ++ rest)) = .ok rest := by
  obtain ⟨ht, hr⟩ := skipDigits hd fun c hc => (h c hc).1
  obtain rfl | rfl := hs <;> simp only [skipExponent, ht, hr, Bool.false_eq_true, if_false]

theorem skipExponent?_append (he : Exponent e) (h : Stops rest) :
    skipExponent? (e ++ rest) = .ok rest := by
  cases he with
  | none =>
    rw [List.nil_append]
    unfold skipExponent?
    split
    · exact absurd rfl (h _ rfl).2.2.1
    · exact absurd rfl (h _ rfl).2.2.2
    · rfl
  | unsigned he hd => obtain rfl | rfl := he <;> exact skipExponent_unsigned hd h
  | signed he hs hd => obtain rfl | rfl := he <;> exact skipExponent_signed hs hd h

theorem Exponent.head (he : Exponent e) (h : Stops rest) :
    ∀ c ∈ (e ++ rest).head?, isDigit c = false ∧ c ≠ '.' := by
  cases he with
  | none => exact fun c hc => ⟨(h c hc).1, (h c hc).2.1⟩
  | unsigned he | signed he =>
    rintro c ⟨⟩
    obtain rfl | rfl := he <;> decide

theorem skipFraction?_append (hf : Fraction f) (he : Exponent e) (h : Stops rest) :
    skipFraction? (f ++ (e ++ rest)) = .ok rest := by
  have hh := he.head h
  cases hf with
  | none =>
    rw [List.nil_append]
    unfold skipFraction?
    split
    · next hs => exact absurd rfl (hh '.' (by rw [hs]; rfl)).2
    · exact skipExponent?_append he h
  | digits hd =>
    obtain ⟨ht, hr⟩ := skipDigits hd fun c hc => (hh c hc).1
    simp only [List.cons_append, skipFraction?, ht, hr]
    exact skipExponent?_append he h

theorem Fraction.head (hf : Fraction f) (hs : ∀ c ∈ s.head?, isDigit c = false) :
    ∀ c ∈ (f ++ s).head?, isDigit c = false := by
  cases hf with
  | none => exact hs
  | digits =>
    rintro c ⟨⟩
    decide

theorem skipNumber_append (hm : Magnitude m) (h : Stops rest) :
    skipNumber (m ++ rest) = .ok rest := by
  obtain ⟨hw, hf, he⟩ := hm
  have hh := hf.head fun c hc => (he.head h c hc).1
  rw [List.append_assoc, List.append_assoc]
  unfold skipNumber
  cases hw with
  | zero =>
    have hz : ∀ c ∈ ['0'], isDigit c = true := List.forall_mem_singleton.mpr rfl
    obtain ⟨ht, hr⟩ := takeWhile_digits hz hh
    rw [ht, hr]
    exact skipFraction?_append hf he h
  | digits hc hd =>
    obtain ⟨ht, hr⟩ := takeWhile_digits hd.2 hh
    rw [ht, hr]
    split
    · next hn => cases hn
    · next hz => cases hz; exact absurd rfl hc
    · exact skipFraction?_append hf he h

end Numbers

theorem Magnitude.head (hm : Magnitude m) : ∃ c t, m = c :: t ∧ isDigit c = true := by
  obtain ⟨hw, hf, he⟩ := hm
  cases hw with
  | zero => exact ⟨'0', _, rfl, by decide⟩
  | digits hc hd => exact ⟨_, _, rfl, hd.2 _ List.mem_cons_self⟩

theorem isSpace_of_isDigit (h : isDigit c = true) : isSpace c = false := by
  rw [Bool.eq_false_iff]
  intro hs
  have hn := (stops_of_isSpace hs [] c rfl).1
  rw [h] at hn
  cases hn

theorem WellFormed.head (h : WellFormed v) : ∃ c t, v = c :: t ∧ isSpace c = false ∧ c ≠ ']' := by
  cases h with
  | null | isTrue | isFalse | negative | text | list | object =>
    exact ⟨_, _, rfl, by decide, by decide⟩
  | positive hm =>
    obtain ⟨c, t, rfl, hc⟩ := hm.head
    refine ⟨c, t, rfl, isSpace_of_isDigit hc, ?_⟩
    rintro rfl
    cases hc

theorem skipSpace_value (h : WellFormed v) (hw : White w) (rest : List Char) :
    skipSpace (w ++ (v ++ rest)) = v ++ rest := by
  obtain ⟨c, t, rfl, hc, -⟩ := h.head
  rw [skipSpace_append hw, List.cons_append, skipSpace_cons hc]

theorem skipSpace_skipSpace (s : List Char) : skipSpace (skipSpace s) = skipSpace s :=
  List.dropWhile_idempotent isSpace s

theorem skipValue_skipSpace (fuel : Nat) (s : List Char) :
    skipValue fuel (skipSpace s) = skipValue fuel s := by
  cases fuel with
  | zero => rw [skipValue, skipValue]
  | succ fuel => rw [skipValue, skipValue, skipSpace_skipSpace]

theorem skipItems_skipSpace (fuel : Nat) (s : List Char) :
    skipItems fuel (skipSpace s) = skipItems fuel s := by
  cases fuel with
  | zero => rw [skipItems, skipItems]
  | succ fuel => rw [skipItems, skipItems, skipValue_skipSpace]

theorem skipMembers_skipSpace (fuel : Nat) (s : List Char) :
    skipMembers fuel (skipSpace s) = skipMembers fuel s := by
  cases fuel with
  | zero => rw [skipMembers, skipMembers]
  | succ fuel => rw [skipMembers, skipMembers, skipSpace_skipSpace]

/-- With fuel for all that is left, the value is passed over and nothing else. -/
def Skipped (v : List Char) : Prop :=
  ∀ fuel rest, Stops rest → 2 * (v ++ rest).length ≤ fuel → skipValue fuel (v ++ rest) = .ok rest

theorem skipped_cons (h : ∀ fuel rest, Stops rest → 2 * (v ++ rest).length ≤ fuel →
    skipValue (fuel + 1) (c :: (v ++ rest)) = .ok rest) : Skipped (c :: v) := by
  intro fuel rest hr hf
  rw [List.cons_append] at *
  rw [List.length_cons] at hf
  obtain ⟨n, rfl⟩ : ∃ n, fuel = n + 1 := ⟨fuel - 1, by omega⟩
  exact h n rest hr (by omega)

theorem skipped_positive (hm : Magnitude m) : Skipped m := by
  obtain ⟨c, t, rfl, hc⟩ := hm.head
  refine skipped_cons fun fuel rest hr _ => ?_
  rw [skipValue, skipSpace_cons (isSpace_of_isDigit hc)]
  -- No other branch starts with a digit.
  split
  case h_9 he =>
    cases he
    rw [if_pos hc]
    exact skipNumber_append hm hr
  all_goals
    next he => cases he <;> exact absurd hc (by decide)

theorem skipped_negative (hm : Magnitude m) : Skipped ('-' :: m) := by
  refine skipped_cons fun fuel rest hr _ => ?_
  rw [skipValue, skipSpace_cons (by decide)]
  exact skipNumber_append hm hr

theorem skipped_text (hb : Body b ps) : Skipped ('"' :: (b ++ ['"'])) := by
  refine skipped_cons fun fuel rest hr _ => ?_
  rw [skipValue, skipSpace_cons (by decide), List.append_assoc]
  exact skipQuoted_body hb rest

theorem skipValue_spaced (hl : White lead) (hw : WellFormed v) (hv : Skipped v)
    (ht : White trail) (hr : Stops rest)
    (hf : 2 * (lead ++ (v ++ (trail ++ rest))).length ≤ fuel) :
    skipValue fuel (lead ++ (v ++ (trail ++ rest))) = .ok (trail ++ rest) := by
  rw [List.length_append] at hf
  rw [← skipValue_skipSpace, skipSpace_value hw hl]
  exact hv fuel _ (hr.append ht) (by omega)

theorem skipItems_after {i : Item} {is : List Item}
    (h : ∀ j ∈ i :: is, j.Spaced ∧ WellFormed j.core ∧ Skipped j.core)
    (hf : 2 * (i.lead ++ (i.core ++ (i.trail ++ after ']' is rest))).length < fuel) :
    skipItems fuel (i.lead ++ (i.core ++ (i.trail ++ after ']' is rest))) = .ok rest := by
  -- Each call costs one unit of fuel and reads a comma, so what is left stays enough.
  induction is generalizing i fuel with
  | nil =>
    obtain ⟨n, rfl⟩ : ∃ n, fuel = n + 1 := ⟨fuel - 1, by omega⟩
    obtain ⟨hs, hw, hv⟩ := h i List.mem_cons_self
    have hk := skipValue_spaced hs.lead hw hv hs.trail (stops_after (.inl rfl) [] rest)
      (Nat.le_of_lt_succ hf)
    rw [skipItems, hk]
    simp only [skipSpace_append hs.trail, after, skipSpace_cons (c := ']') (by decide)]
  | cons j is ih =>
    obtain ⟨n, rfl⟩ : ∃ n, fuel = n + 1 := ⟨fuel - 1, by omega⟩
    obtain ⟨hs, hw, hv⟩ := h i List.mem_cons_self
    have hk := skipValue_spaced hs.lead hw hv hs.trail (stops_after (.inl rfl) (j :: is) rest)
      (Nat.le_of_lt_succ hf)
    simp only [after, List.length_append, List.length_cons] at hf
    rw [skipItems, hk]
    simp only [skipSpace_append hs.trail, after, skipSpace_cons (c := ',') (by decide)]
    refine ih (fun k hk => h k (List.mem_cons_of_mem i hk)) ?_
    simp only [List.length_append]
    omega

theorem skipMembers_steps {m : Member} (hs : m.Spaced) (hw : WellFormed m.value)
    (hv : Skipped m.value) (hr : Stops rest)
    (hf : 2 * (m.item.lead ++ (m.item.core ++ (m.item.trail ++ rest))).length ≤ fuel) :
    ∃ a b c, skipSpace (m.item.lead ++ (m.item.core ++ (m.item.trail ++ rest))) = '"' :: a ∧
      skipQuoted a = .ok b ∧ skipSpace b = ':' :: c ∧ skipValue fuel c = .ok (m.trail ++ rest) := by
  obtain ⟨ps, hb⟩ := hs.key
  have hq := skipQuoted_body hb (m.gap ++ ':' :: (m.ahead ++ (m.value ++ (m.trail ++ rest))))
  have hl : 2 * (m.ahead ++ (m.value ++ (m.trail ++ rest))).length ≤ fuel := by
    simp only [Member.item_append, List.length_append, List.length_cons] at hf ⊢
    omega
  refine ⟨_, _, _, ?_, hq, ?_, skipValue_spaced hs.ahead hw hv hs.trail hr hl⟩
  · rw [Member.item_append, skipSpace_append hs.lead, skipSpace_cons (by decide)]
  · rw [skipSpace_append hs.gap, skipSpace_cons (by decide)]

theorem skipMembers_after {m : Member} {ms : List Member}
    (h : ∀ k ∈ m :: ms, k.Spaced ∧ WellFormed k.value ∧ Skipped k.value)
    (hf : 2 * (m.item.lead ++ (m.item.core ++
      (m.item.trail ++ after '}' (ms.map Member.item) rest))).length < fuel) :
    skipMembers fuel (m.item.lead ++ (m.item.core ++
      (m.item.trail ++ after '}' (ms.map Member.item) rest))) = .ok rest := by
  induction ms generalizing m fuel with
  | nil =>
    obtain ⟨n, rfl⟩ : ∃ n, fuel = n + 1 := ⟨fuel - 1, by omega⟩
    obtain ⟨hs, hw, hv⟩ := h m List.mem_cons_self
    obtain ⟨a, b, c, hq, hk, hc, hn⟩ :=
      skipMembers_steps hs hw hv (stops_after (.inr rfl) _ rest) (Nat.le_of_lt_succ hf)
    rw [skipMembers, hq]
    simp only [hk, hc, hn, skipSpace_append hs.trail]
    simp only [List.map_nil, after, skipSpace_cons (c := '}') (by decide)]
  | cons k ms ih =>
    obtain ⟨n, rfl⟩ : ∃ n, fuel = n + 1 := ⟨fuel - 1, by omega⟩
    obtain ⟨hs, hw, hv⟩ := h m List.mem_cons_self
    obtain ⟨a, b, c, hq, hk, hc, hn⟩ :=
      skipMembers_steps hs hw hv (stops_after (.inr rfl) _ rest) (Nat.le_of_lt_succ hf)
    rw [skipMembers, hq]
    simp only [hk, hc, hn, skipSpace_append hs.trail]
    simp only [List.map_cons, after, skipSpace_cons (c := ',') (by decide)]
    refine ih (fun l hl => h l (List.mem_cons_of_mem m hl)) ?_
    simp only [List.map_cons, after, List.length_append, List.length_cons] at hf ⊢
    omega

theorem skipValue_items (hr : skipSpace r = c :: t) (hc : c ≠ ']') (fuel : Nat) :
    skipValue (fuel + 1) ('[' :: r) = skipItems fuel r := by
  rw [← skipItems_skipSpace fuel r, skipValue, skipSpace_cons (by decide)]
  simp only [hr]
  split
  · next he => cases he
  · next he => cases he; exact absurd rfl hc
  · rfl

theorem skipValue_members (hr : skipSpace r = c :: t) (hc : c ≠ '}') (fuel : Nat) :
    skipValue (fuel + 1) ('{' :: r) = skipMembers fuel r := by
  rw [← skipMembers_skipSpace fuel r, skipValue, skipSpace_cons (by decide)]
  simp only [hr]
  split
  · next he => cases he
  · next he => cases he; exact absurd rfl hc
  · rfl

theorem skipped_list (hw : White w) {is : List Item}
    (h : ∀ i ∈ is, i.Spaced ∧ WellFormed i.core ∧ Skipped i.core) :
    Skipped (bracketed '[' ']' w is) := by
  intro fuel rest hr hf
  cases is with
  | nil => 
    rw [bracketed_nil_append] at *
    obtain ⟨n, rfl⟩ : ∃ n, fuel = n + 1 := ⟨fuel - 1, by simp at hf; omega⟩
    rw [skipValue, skipSpace_cons (by decide)]
    simp only [skipSpace_append hw, skipSpace_cons (c := ']') (by decide)]
  | cons i is =>
    rw [bracketed_cons_append, List.length_cons] at *
    obtain ⟨n, rfl⟩ : ∃ n, fuel = n + 1 := ⟨fuel - 1, by omega⟩
    obtain ⟨hs, hw, hv⟩ := h i List.mem_cons_self
    obtain ⟨c, t, hc, -, hn⟩ := hw.head
    rw [skipValue_items (by rw [skipSpace_value hw hs.lead, hc, List.cons_append]) hn]
    exact skipItems_after h (by omega)

theorem skipped_object (hw : White w) {ms : List Member}
    (h : ∀ m ∈ ms, m.Spaced ∧ WellFormed m.value ∧ Skipped m.value) :
    Skipped (bracketed '{' '}' w (ms.map Member.item)) := by
  intro fuel rest hr hf
  cases ms with
  | nil =>
    rw [List.map_nil, bracketed_nil_append, List.length_cons] at *
    obtain ⟨n, rfl⟩ : ∃ n, fuel = n + 1 := ⟨fuel - 1, by omega⟩
    rw [skipValue, skipSpace_cons (by decide)]
    simp only [skipSpace_append hw, skipSpace_cons (c := '}') (by decide)]
  | cons m ms =>
    rw [List.map_cons, bracketed_cons_append, List.length_cons] at *
    obtain ⟨n, rfl⟩ : ∃ n, fuel = n + 1 := ⟨fuel - 1, by omega⟩
    have hs := (h m List.mem_cons_self).1
    have hk : ∀ s, skipSpace (m.item.lead ++ (m.item.core ++ s)) = m.item.core ++ s := fun s => by
      rw [Member.item, skipSpace_append hs.lead, List.cons_append, skipSpace_cons (by decide)]
    rw [skipValue_members (hk _) (by decide)]
    exact skipMembers_after h (by omega)

theorem WellFormed.skipped (h : WellFormed v) : Skipped v := by
  induction h with
  | null | isTrue | isFalse =>
    refine skipped_cons fun fuel rest _ _ => ?_
    rw [skipValue, skipSpace_cons (by decide)]
    rfl
  | positive hm => exact skipped_positive hm
  | negative hm => exact skipped_negative hm
  | text hb => exact skipped_text hb
  | list hw hs hv ih => exact skipped_list hw fun i hi => ⟨hs i hi, hv i hi, ih i hi⟩
  | object hw hs hv ih => exact skipped_object hw fun m hm => ⟨hs m hm, hv m hm, ih m hm⟩

theorem skip_value (h : WellFormed v) (hw : White w) (hr : Stops rest) :
    skip (w ++ (v ++ rest)) = .ok rest := by
  rw [skip, ← skipValue_skipSpace, skipSpace_value h hw]
  refine h.skipped _ rest hr ?_
  simp only [List.length_append]
  omega

end Triage.Json
