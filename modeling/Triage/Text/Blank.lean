namespace Triage.Text

/-- The characters with the `White_Space` property. -/
def isBlank (c : Char) : Bool :=
  let n := c.toNat
  (9 ≤ n && n ≤ 13) || n == 32 || n == 0x85 || n == 0xA0 || n == 0x1680 ||
    (0x2000 ≤ n && n ≤ 0x200A) || n == 0x2028 || n == 0x2029 || n == 0x202F || n == 0x205F ||
    n == 0x3000

def trimStart (s : List Char) : List Char := s.dropWhile isBlank

def trimEnd (s : List Char) : List Char := (s.reverse.dropWhile isBlank).reverse

def trim (s : List Char) : List Char := trimEnd (trimStart s)

def cutBefore (sep c : Char) : List (List Char) → List (List Char)
  | [] => if c = sep then [[], []] else [[c]]
  | p :: ps => if c = sep then [] :: p :: ps else (c :: p) :: ps

/-- The pieces of `s` between the characters `sep`; one more than there are separators. -/
def splitAt (sep : Char) (s : List Char) : List (List Char) := s.foldr (cutBefore sep) [[]]

/-- Drops one carriage return from the end of a line. -/
def dropReturn (s : List Char) : List Char :=
  if s.getLast? = some '\r' then s.dropLast else s

/-- The lines in the pieces of a text cut at its line feeds: what follows the last line feed is a
line of its own only if something does, and keeps a carriage return. -/
def linesOfPieces : List (List Char) → List (List Char)
  | [] => []
  | [p] => if p.isEmpty then [] else [p]
  | p :: q :: ps => dropReturn p :: linesOfPieces (q :: ps)

def lines (s : List Char) : List (List Char) := linesOfPieces (splitAt '\n' s)

/-- `t` when `s` is `p` followed by `t`. -/
def stripPrefix? : (p s : List Char) → Option (List Char)
  | [], s => some s
  | _ :: _, [] => none
  | a :: p, b :: s => if a = b then stripPrefix? p s else none

def stripSuffix? (q s : List Char) : Option (List Char) :=
  (stripPrefix? q.reverse s.reverse).map List.reverse

def splitOnce? (p : List Char) : List Char → Option (List Char × List Char)
  | [] => if p.isEmpty then some ([], []) else none
  | c :: s =>
    match stripPrefix? p (c :: s) with
    | some t => some ([], t)
    | none => (splitOnce? p s).map fun (h, t) => (c :: h, t)

def splitLast? (p s : List Char) : Option (List Char × List Char) :=
  (splitOnce? p.reverse s.reverse).map fun (t, h) => (h.reverse, t.reverse)

def contains (p : List Char) : List Char → Bool
  | [] => p.isEmpty
  | c :: s => p.isPrefixOf (c :: s) || contains p s

/-- The last line of `s` with anything but white space in it, trimmed. -/
def lastMeaningfulLine? (s : List Char) : Option (List Char) :=
  (((lines s).map trim).filter (!·.isEmpty)).getLast?

@[simp] theorem splitAt_nil (sep : Char) : splitAt sep [] = [[]] := rfl

theorem splitAt_cons (sep c : Char) (s : List Char) :
    splitAt sep (c :: s) = cutBefore sep c (splitAt sep s) := rfl

theorem cutBefore_ne_nil (sep c : Char) (ps : List (List Char)) : cutBefore sep c ps ≠ [] := by
  unfold cutBefore
  split <;> split <;> simp

theorem splitAt_ne_nil (sep : Char) (s : List Char) : splitAt sep s ≠ [] := by
  cases s with
  | nil => simp
  | cons c r => exact cutBefore_ne_nil sep c _

theorem splitAt_append (sep : Char) (a b : List Char) :
    splitAt sep (a ++ sep :: b) = splitAt sep a ++ splitAt sep b := by
  induction a with
  | nil =>
    obtain ⟨p, ps, hp⟩ := List.exists_cons_of_ne_nil (splitAt_ne_nil sep b)
    rw [List.nil_append, splitAt_cons, hp]
    simp [cutBefore]
  | cons c a ih =>
    obtain ⟨p, ps, hp⟩ := List.exists_cons_of_ne_nil (splitAt_ne_nil sep a)
    rw [List.cons_append, splitAt_cons, ih, splitAt_cons, hp, List.cons_append]
    simp only [cutBefore]
    split <;> rfl

theorem splitAt_of_not_mem {sep : Char} {s : List Char} (h : sep ∉ s) : splitAt sep s = [s] := by
  induction s with
  | nil => rfl
  | cons c s ih =>
    obtain ⟨hc, hs⟩ := not_or.mp (mt List.mem_cons.mpr h)
    rw [splitAt_cons, ih hs]
    exact if_neg (Ne.symm hc)

theorem not_mem_of_mem_splitAt {sep : Char} {s p : List Char} (h : p ∈ splitAt sep s) :
    sep ∉ p := by
  induction s generalizing p with
  | nil =>
    cases List.eq_of_mem_singleton h
    exact List.not_mem_nil
  | cons c s ih =>
    obtain ⟨q, qs, hq⟩ := List.exists_cons_of_ne_nil (splitAt_ne_nil sep s)
    rw [splitAt_cons, hq] at h
    rw [hq] at ih
    simp only [cutBefore] at h
    split at h
    · rcases List.mem_cons.mp h with rfl | h
      · exact List.not_mem_nil
      · exact ih h
    · next hc =>
      rcases List.mem_cons.mp h with rfl | h
      · exact mt List.mem_cons.mp (not_or.mpr ⟨Ne.symm hc, ih List.mem_cons_self⟩)
      · exact ih (List.mem_cons_of_mem _ h)

@[simp] theorem stripPrefix?_append (p s : List Char) : stripPrefix? p (p ++ s) = some s := by
  induction p with
  | nil => rfl
  | cons a p ih => simp [stripPrefix?, ih]

theorem eq_append_of_stripPrefix? {p s t : List Char} (h : stripPrefix? p s = some t) :
    s = p ++ t := by
  fun_induction stripPrefix? p s with
  | case1 s => simpa using h
  | case2 => simp at h
  | case3 p b s ih => simp [ih h]
  | case4 => simp at h

theorem splitOnce?_singleton {c : Char} {s h t : List Char} :
    splitOnce? [c] s = some (h, t) ↔ c ∉ h ∧ s = h ++ c :: t := by
  induction s generalizing h with
  | nil => simp [splitOnce?]
  | cons d s ih =>
    simp only [splitOnce?, stripPrefix?]
    by_cases hc : c = d
    · subst hc
      cases h with
      | nil => simp
      | cons a h =>
        refine iff_of_false (by simp) ?_
        rintro ⟨hn, he⟩
        cases he
        exact hn List.mem_cons_self
    · cases h with
      | nil => simp [hc, Ne.symm hc]
      | cons a h =>
        simp only [hc, if_false, Option.map_eq_some_iff, Prod.exists, Prod.mk.injEq,
          List.cons.injEq, List.mem_cons, List.cons_append]
        grind

theorem splitLast?_singleton {c : Char} {s h t : List Char} :
    splitLast? [c] s = some (h, t) ↔ c ∉ t ∧ s = h ++ c :: t := by
  have hr : s = h ++ c :: t ↔ s.reverse = t.reverse ++ c :: h.reverse := by
    rw [← List.reverse_inj]
    simp
  rw [hr, ← List.mem_reverse, ← splitOnce?_singleton]
  simp only [splitLast?, Option.map_eq_some_iff, Prod.exists, Prod.mk.injEq, List.reverse_singleton,
    List.reverse_eq_iff]
  grind

end Triage.Text
